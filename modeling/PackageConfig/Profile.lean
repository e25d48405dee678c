import PackageConfig.Recipe
import PackageConfig.Tables

/-!
What a run is asked for: a profile, which is a saved choice of platform and
option values, and what the command line adds to it.

The command line wins over the profile, name by name, and a later argument over
an earlier one. Values of a profile are kept as they are written until they are
laid over the defaults; values of the command line are read at once under the
domain of their option.
-/

namespace PackageConfig

/-! ## Profiles -/

/-- The parts of a platform by the names that people gave, each of which may be missing. -/
structure PlatformNames where
  os : Option String := none
  compiler : Option String := none
  arch : Option String := none
  deriving DecidableEq, Inhabited

/-- Read the names of a platform. -/
def PlatformNames.ofData? (dialect : Data.Dialect) (d : Data) : Option PlatformNames := do
  let record ← d.record? dialect ["os", "compiler", "arch"]
  return {
    os := ← record.optional "os" Data.text?
    compiler := ← record.optional "compiler" Data.text?
    arch := ← record.optional "arch" Data.text? }

/-- Read the values of a table as a request. -/
def Request.ofData? : Data → Option Request
  | .table fields =>
    (fields.mapM fun field => (Value.ofData? field.2).map (field.1, ·)).map NameMap.ofList
  | _ => none

/-- A request as data, by option. -/
def Request.toData (request : Request) : Data :=
  .table (request.entries.map fun entry => (entry.1, entry.2.toData))

/-- A saved choice of platform and option values. -/
structure Profile where
  settings : PlatformNames := {}
  options : Request := .empty
  deriving DecidableEq, Inhabited

namespace Profile

/-- Read a profile. -/
def ofData? (dialect : Data.Dialect) (d : Data) : Option Profile := do
  let record ← d.record? dialect ["settings", "options"]
  return {
    settings := ← record.orElse "settings" {} (PlatformNames.ofData? dialect)
    options := ← record.orElse "options" .empty Request.ofData? }

/-- Read a profile from a TOML text. -/
def parse (text : String) : Except Fault Profile :=
  readTables "profile" (ofData? .toml) text

end Profile

/-! ## Requests from arguments -/

/-- Cut an argument `name=value` at its first `=`; blanks around the two parts do
not count, and the name may not be blank. -/
def splitArgument (argument : String) : Except Fault (String × String) :=
  match Text.cut '=' argument with
  | some (name, value) =>
    if Text.trim name = "" then .error (.invalidManifest (.malformedRequest argument))
    else .ok (Text.trim name, Text.trim value)
  | none => .error (.invalidManifest (.malformedRequest argument))

namespace Recipe

/-- Read one argument as an option and a value of its domain. -/
def readArgument (recipe : Recipe) (argument : String) : Except Fault (String × Value) := do
  let (name, raw) ← splitArgument argument
  let value ← recipe.catalog.read name raw
  return (name, value)

/-- The request of a profile and arguments: each argument, in its order, replaces
what stands for its option. -/
def request (recipe : Recipe) (profile : Option Profile) (arguments : List String) :
    Except Fault Request := do
  let given ← arguments.mapM recipe.readArgument
  return ((profile.map Profile.options).getD .empty).overlay (.ofList given)

end Recipe

/-! ## The platform of a run -/

/-- What is known about the machine that runs the program. -/
structure Host where
  os : Option Os := none
  arch : Option Arch := none
  deriving DecidableEq, Inhabited

namespace Platform

/-- Read a name of a part of a platform. -/
def readPart {α : Type} (part : PlatformPart) (parse? : String → Option α) (name : String) :
    Except Fault α :=
  match parse? name with
  | some value => .ok value
  | none => .error (.invalidManifest (.unknownPlatform part name))

/-- The operating system of a name. -/
def readOs : String → Except Fault Os :=
  readPart .os Os.parse?

/-- The compiler of a name. -/
def readCompiler : String → Except Fault Compiler :=
  readPart .compiler Compiler.parse?

/-- The architecture of a name. -/
def readArch : String → Except Fault Arch :=
  readPart .arch Arch.parse?

/-- The platform of a run: each part as the flags name it, else as the settings
do, else as the host is; the compiler is else the usual one of the operating
system. -/
def select (host : Host) (flags settings : PlatformNames) : Except Fault Platform := do
  let os ← match flags.os <|> settings.os, host.os with
    | some name, _ => readOs name
    | none, some os => pure os
    | none, none => throw (.invalidManifest .undetectedOs)
  let compiler ← match flags.compiler <|> settings.compiler with
    | some name => readCompiler name
    | none => pure (Compiler.usualFor os)
  let arch ← match flags.arch <|> settings.arch, host.arch with
    | some name, _ => readArch name
    | none, some arch => pure arch
    | none, none => throw (.invalidManifest .undetectedArch)
  return ⟨os, compiler, arch⟩

end Platform

end PackageConfig
