import PackageConfig.Platform
import PackageConfig.Pin
import PackageConfig.Text.Quoted
import PackageConfig.Options.Value

/-!
Everything that can go wrong, by cause. A cause keeps the names and values it
is about; the wording is in `Fault.message` and the functions it calls, and
nowhere else.
-/

namespace PackageConfig

/-! ## Tables and manifests -/

/-- Two variable rules that cannot stand in one table: they share a name, they
share the name the build driver sees, or they are fed by the same option. -/
inductive VariableClash where
  | sameName (name : String)
  | sameDriverName (driver : String)
  | sameSource (name option : String)
  deriving DecidableEq, Inhabited

/-- The wording of a clash of variables. -/
def VariableClash.message : VariableClash → String
  | .sameName name => name
  | .sameDriverName driver => driver
  | .sameSource name option => s!"{name} (option '{option}' already mapped)"

/-- How messages call a part of a platform. -/
def PlatformPart.shown : PlatformPart → String
  | .os => "operating system"
  | .compiler => "compiler"
  | .arch => "architecture"

/-- What makes a manifest, a profile or a request unintelligible. -/
inductive ManifestFault where
  /-- A part of a platform has a name that nothing has. -/
  | unknownPlatform (part : PlatformPart) (name : String)
  /-- Nothing names the operating system and the host's is not known. -/
  | undetectedOs
  /-- Nothing names the architecture and the host's is not known. -/
  | undetectedArch
  /-- A pin is not written `name/version`. -/
  | malformedPin (text : String)
  /-- A rule on pins lacks options or lacks components. -/
  | hollowRule (options components : List String)
  /-- An option lists its values, but lists none. -/
  | noValues (option : String)
  /-- A prune row has both of its two actions, or neither. -/
  | actionCount
  /-- A prune row is conditioned both on an option and on the platform. -/
  | mixedCondition (target : String)
  /-- A variable has no source, or several kinds of source. -/
  | sourceCount (name : String)
  /-- An option given on the command line is not written `name=value`. -/
  | malformedRequest (argument : String)
  /-- A file does not hold UTF-8 text. -/
  | notText (path : String)
  /-- A text is not TOML, or its tables are not the expected ones. -/
  | malformedTables (origin : String)
  /-- A TOML text has a dotted key of too many parts. -/
  | longKey (origin : String)
  deriving DecidableEq, Inhabited

/-- The wording of a fault of a manifest. -/
def ManifestFault.message : ManifestFault → String
  | .unknownPlatform part name => s!"unknown {part.shown} '{name}'"
  | .undetectedOs => "cannot detect host OS; pass --os"
  | .undetectedArch => "cannot detect host architecture; pass --arch"
  | .malformedPin text => s!"invalid requirement '{text}'"
  | .hollowRule options components =>
    "requirement rule needs at least one option and one component (got " ++
      Text.quotedList options ++ " -> " ++ Text.quotedList components ++ ")"
  | .noValues option => s!"option '{option}' lists no values"
  | .actionCount => "prune entry needs exactly one of 'remove' or 'force'"
  | .mixedCondition target =>
    s!"prune entry for '{target}' mixes an option condition with platform fields"
  | .sourceCount name =>
    s!"variable '{name}' needs exactly one of 'option', 'value' or 'any_of'/'or_shared'"
  | .malformedRequest argument => s!"expected name=value, got '{argument}'"
  | .notText path => s!"'{path}' is not valid UTF-8"
  | .malformedTables origin => s!"{origin}: TOML parse error"
  | .longKey origin => s!"{origin}: recursion limit\n"

/-! ## Lockfiles -/

/-- Why bytes cannot be decoded. -/
inductive DecodeFault where
  | endOfData
  | endlessNumber
  | badSwitch
  | badText
  | badTag
  deriving DecidableEq, Inhabited

/-- The wording of a fault of decoding. -/
def DecodeFault.message : DecodeFault → String
  | .endOfData => "Hit the end of buffer, expected more data"
  | .endlessNumber =>
    "Found a varint that didn't terminate. Is the usize too big for this platform?"
  | .badSwitch => "Found a bool that wasn't 0 or 1"
  | .badText => "Tried to parse invalid utf-8"
  | .badTag => "Serde Deserialization Error"

/-- The lists that a lockfile holds. -/
inductive LockList where
  | options
  | pins
  | table
  deriving DecidableEq, Inhabited

/-- How messages call an entry of a list. -/
def LockList.shown : LockList → String
  | .options => "Option"
  | .pins => "Requirement"
  | .table => "Variable"

/-- The most entries that a list of a lockfile may announce. -/
def LockList.limit : Nat := 100000

/-- Why a lockfile cannot be written, or why bytes are not a lockfile. -/
inductive LockFault where
  /-- The length of the header does not fit its four bytes. -/
  | headerTooLarge
  /-- The length of the header is cut off. -/
  | tooShort
  /-- The header is cut off. -/
  | headerCut
  | header (cause : DecodeFault)
  /-- The header does not start with the mark of lockfiles. -/
  | foreign
  | unknownVersion
  | tooMany (list : LockList) (count : UInt64)
  | body (cause : DecodeFault)
  | checksum (announced found : UInt64)
  /-- The lists are not as long as the header announces. -/
  | counts
  deriving DecidableEq, Inhabited

/-- The wording of a fault of a lockfile. -/
def LockFault.message : LockFault → String
  | .headerTooLarge => "Header too large"
  | .tooShort => "Data too short"
  | .headerCut => "Data too short for header"
  | .header cause => s!"Header: {cause.message}"
  | .foreign => "Invalid file format"
  | .unknownVersion => "Unsupported file version"
  | .tooMany list count =>
    s!"{list.shown} count {count} exceeds maximum allowed {LockList.limit}"
  | .body cause => s!"Data: {cause.message}"
  | .checksum announced found => s!"Checksum mismatch: expected {announced}, got {found}"
  | .counts => "Entry count mismatch"

/-! ## Files -/

/-- Why the system refuses a path. -/
inductive PathFault where
  | missing
  | notDirectory
  | isDirectory
  | nameTooLong
  | zeroCharacter
  deriving DecidableEq, Inhabited

/-- The wording of the system, with its error number. -/
def PathFault.message : PathFault → String
  | .missing => "No such file or directory (os error 2)"
  | .notDirectory => "Not a directory (os error 20)"
  | .isDirectory => "Is a directory (os error 21)"
  | .nameTooLong => "File name too long (os error 36)"
  | .zeroCharacter => "file name contained an unexpected NUL byte"

/-- Why a file cannot be read or written. -/
inductive FileFault where
  | unreachable (path : String) (cause : PathFault)
  | notRegular (path : String)
  | tooLarge (size limit : Nat)
  | noOutputDirectory (directory : String) (cause : PathFault)
  | outputBelowFile (directory : String)
  | noFileName
  | notWritten (cause : PathFault)
  deriving DecidableEq, Inhabited

/-- The wording of a fault of a file. -/
def FileFault.message : FileFault → String
  | .unreachable path cause => s!"Invalid file path '{path}': {cause.message}"
  | .notRegular path => s!"Path '{path}' is not a regular file"
  | .tooLarge size limit =>
    s!"File size {size} bytes exceeds maximum allowed {limit} bytes"
  | .noOutputDirectory directory cause =>
    s!"Invalid output directory '{directory}': {cause.message}"
  | .outputBelowFile directory =>
    s!"Output directory '{directory}' is not a valid directory"
  | .noFileName => "Output path has no filename"
  | .notWritten cause => s!"Write file: {cause.message}"

/-! ## All faults -/

/-- Why a configuration cannot be assembled, resolved, locked or compared. -/
inductive Fault where
  /-- An option that was never declared is asked for or referred to. -/
  | unknownOption (name : String)
  /-- A value, given by its text, lies outside the domain of its option. -/
  | outsideDomain (option given : String) (expected : Domain)
  /-- An option is declared a second time. -/
  | duplicateOption (name : String)
  /-- A component is pinned to two versions. -/
  | pinConflict (first second : Pin)
  /-- A variable table repeats itself. -/
  | duplicateVariable (clash : VariableClash)
  | invalidManifest (cause : ManifestFault)
  /-- A lockfile is sound and locks something else. -/
  | lockMismatch (path : String)
  | invalidLock (cause : LockFault)
  | file (cause : FileFault)
  deriving DecidableEq, Inhabited

/-- The wording of a fault. -/
def Fault.message : Fault → String
  | .unknownOption name => s!"Unknown option: {name}"
  | .outsideDomain option given expected =>
    s!"Value '{given}' is outside the domain of option '{option}' (expected {expected.shown})"
  | .duplicateOption name => s!"Duplicate option: {name}"
  | .pinConflict first second =>
    s!"Requirement conflict on '{second.name}': {first.shown} vs {second.shown}"
  | .duplicateVariable clash => s!"Duplicate variable: {clash.message}"
  | .invalidManifest cause => s!"Invalid manifest: {cause.message}"
  | .lockMismatch path => s!"Lockfile mismatch: '{path}' does not match current resolution"
  | .invalidLock cause => s!"Serialization error: {cause.message}"
  | .file cause => s!"I/O error: {cause.message}"

end PackageConfig
