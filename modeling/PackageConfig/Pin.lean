import PackageConfig.Data
import PackageConfig.Text.Blank
import PackageConfig.Text.Split

/-!
Pins: outside components that a configuration requires, each at one exact version,
written `name/version`.
-/

namespace PackageConfig

/-- A component and the version it is pinned to. -/
structure Pin where
  name : String
  version : String
  deriving DecidableEq, Inhabited

namespace Pin

/-- The written form `name/version`. -/
def shown (pin : Pin) : String :=
  pin.name ++ "/" ++ pin.version

/-- A part of a pin has characters, none of which is a slash or a blank. -/
def isPart (cs : List Char) : Bool :=
  !cs.isEmpty && cs.all fun c => c != '/' && !Text.isBlank c

/-- Read the written form, blanks at its ends aside: exactly two parts with a
slash between them. -/
def parse? (s : String) : Option Pin :=
  match Text.cutChars '/' (Text.trimChars s.toList) with
  | some (name, version) =>
    if isPart name && isPart version then
      some ⟨String.ofList name, String.ofList version⟩
    else none
  | none => none

/-- A pin as data. -/
def toData (pin : Pin) : Data :=
  .table [("name", .text pin.name), ("version", .text pin.version)]

/-- Read a pin from JSON; its two fields are taken as they are. -/
def ofData? (d : Data) : Option Pin := do
  let record ← d.openRecord? .json ["name", "version"]
  let name ← record.required "name" Data.text?
  let version ← record.required "version" Data.text?
  return ⟨name, version⟩

end Pin

end PackageConfig
