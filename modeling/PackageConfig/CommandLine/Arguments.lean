import PackageConfig.Profile

/-!
The arguments of the command line: flags that hold for every command, a command,
and the flags of that command.

Flags for every command may stand before or behind the command. Of a flag that
is given several times the last counts, and behind the command counts more than
before it; requested options add up, but only those behind the command count if
there are any. A value that starts with a hyphen has to be attached to its flag.
-/

namespace PackageConfig.CommandLine

/-! ## Flags -/

/-- The flags that there are. -/
inductive Flag where
  | recipe
  | profile
  | option
  | os
  | compiler
  | arch
  | json
  | format
  | output
  | input
  deriving DecidableEq, Inhabited

namespace Flag

/-- The name of a flag behind two hyphens. -/
def long : Flag → String
  | recipe => "recipe"
  | profile => "profile"
  | option => "option"
  | os => "os"
  | compiler => "compiler"
  | arch => "arch"
  | json => "json"
  | format => "format"
  | output => "output"
  | input => "input"

/-- The letter of a flag behind one hyphen, if it has one. -/
def short? : Flag → Option Char
  | recipe => some 'r'
  | profile => some 'p'
  | option => some 'o'
  | format => some 'f'
  | input => some 'i'
  | _ => none

/-- Whether a flag is followed by a value. -/
def takesValue : Flag → Bool
  | json => false
  | _ => true

/-- The flags that hold for every command. -/
def everywhere : List Flag :=
  [recipe, profile, option, os, compiler, arch, json]

/-- Whether a value is allowed for a flag: paths are not empty, and formats are known. -/
def allows : Flag → String → Bool
  | recipe, value | profile, value | output, value | input, value => value ≠ ""
  | format, value => ["args", "cmake", "json"].contains value
  | _, _ => true

end Flag

/-- A flag with the value that it was given. -/
abbrev Setting := Flag × String

/-! ## Commands -/

/-- The ways to print the variable table. -/
inductive TableFormat where
  | args
  | cmake
  | json
  deriving DecidableEq, Inhabited

/-- The commands, each with what its own flags say. -/
inductive Command where
  | resolve
  | options
  | pins
  | table (format : TableFormat)
  | explain
  | lock (output : String)
  | verify (input : String)
  | hash
  deriving DecidableEq, Inhabited

/-- The lockfile that is written and read if no other is named. -/
def defaultLockfile : String := "aeonconf.lock"

/-- The value of the last setting of a flag. -/
def last? (flag : Flag) (settings : List Setting) : Option String :=
  ((settings.filter fun setting => setting.1 = flag).getLast?).map Prod.snd

/-- The format that a value names. -/
def TableFormat.ofName : Option String → TableFormat
  | some "cmake" => cmake
  | some "json" => json
  | _ => args

/-- The flags of each command beside those for every command, and the command
that its settings make; `none` if there is no command of this name. -/
def command? : String → Option (List Flag × (List Setting → Command))
  | "resolve" => some ([], fun _ => .resolve)
  | "options" => some ([], fun _ => .options)
  | "requirements" => some ([], fun _ => .pins)
  | "variables" => some ([.format], fun s => .table (.ofName (last? .format s)))
  | "explain" => some ([], fun _ => .explain)
  | "lock" => some ([.output], fun s => .lock ((last? .output s).getD defaultLockfile))
  | "verify" => some ([.input], fun s => .verify ((last? .input s).getD defaultLockfile))
  | "hash" => some ([], fun _ => .hash)
  | _ => none

/-! ## Reading -/

/-- What a single argument is. -/
inductive Word where
  /-- A flag with its value, or without one that it does not take. -/
  | setting (s : Setting)
  /-- A flag whose value is the next argument. -/
  | awaiting (flag : Flag)
  /-- Two hyphens, behind which no flag and no command stands. -/
  | stop
  /-- An argument that does not start with a hyphen. -/
  | plain (s : String)
  /-- An argument that no flag accounts for. -/
  | unknown
  deriving DecidableEq, Inhabited

/-- A flag and the value attached to it, if there is one. -/
def attach (flag : Flag) : Option String → Word
  | some value => if flag.takesValue && flag.allows value then .setting (flag, value) else .unknown
  | none => if flag.takesValue then .awaiting flag else .setting (flag, "")

/-- What an argument is, where the given flags are known. -/
def word (flags : List Flag) (argument : String) : Word :=
  match argument.toList with
  | ['-', '-'] => .stop
  | '-' :: '-' :: rest =>
    let (name, value) := match Text.cutChars '=' rest with
      | some (name, value) => (String.ofList name, some (String.ofList value))
      | none => (String.ofList rest, none)
    match flags.find? fun flag => flag.long = name with
    | some flag => attach flag value
    | none => .unknown
  | '-' :: letter :: rest =>
    match flags.find? fun flag => flag.short? = some letter with
    | none => .unknown
    | some flag =>
      match rest with
      | [] => attach flag none
      | '=' :: value => attach flag (some (String.ofList value))
      | value => attach flag (some (String.ofList value))
  | _ => .plain argument

/-- Whether an argument can be the value of the flag before it. -/
def isValue (argument : String) : Bool :=
  match argument.toList with
  | '-' :: _ :: _ => false
  | _ => true

/-- Read settings up to a plain argument; answer the settings, and that argument
with those behind it. Without `plain`, two hyphens may still stand at the end. -/
def settings? (flags : List Flag) : List String → Option (List Setting × List String)
  | [] => some ([], [])
  | argument :: rest =>
    match word flags argument with
    | .plain s => some ([], s :: rest)
    | .stop => if rest.isEmpty then some ([], []) else none
    | .unknown => none
    | .setting s => (settings? flags rest).map fun (settings, rest) => (s :: settings, rest)
    | .awaiting flag =>
      match rest with
      | [] => none
      | value :: rest =>
        if isValue value && flag.allows value then
          (settings? flags rest).map fun (settings, rest) => ((flag, value) :: settings, rest)
        else none

/-- Everything that the command line says. -/
structure Arguments where
  recipe : Option String := none
  profile : Option String := none
  options : List String := []
  platform : PlatformNames := {}
  json : Bool := false
  command : Command := .resolve
  deriving DecidableEq, Inhabited

/-- The values of the requested options. -/
def requested (settings : List Setting) : List String :=
  (settings.filter fun setting => setting.1 = .option).map Prod.snd

/-- Put together what stands before and behind the command. -/
def merge (before behind : List Setting) (command : Command) : Arguments :=
  let pick (flag : Flag) := last? flag behind <|> last? flag before
  { recipe := pick .recipe
    profile := pick .profile
    options := if (requested behind).isEmpty then requested before else requested behind
    platform := ⟨pick .os, pick .compiler, pick .arch⟩
    json := (pick .json).isSome
    command := command }

/-- Read the arguments; `none` if they are not understood. Without a command,
the configuration is resolved. -/
def Arguments.parse? (arguments : List String) : Option Arguments := do
  let (before, rest) ← settings? Flag.everywhere arguments
  match rest with
  | [] => return merge before [] .resolve
  | name :: rest => do
    let (own, command) ← command? name
    let (behind, rest) ← settings? (Flag.everywhere ++ own) rest
    if rest.isEmpty then return merge before behind (command behind) else none

end PackageConfig.CommandLine
