import PackageConfig.Options.Configuration

/-!
The catalog of declared options, and the requests that are laid over their
defaults.

A declaration is checked against what is declared already, so a catalog only
ever grows by declarations that fit: names are distinct, defaults lie in their
domains, and a parent stands before its children. A request is checked name by
name, in the order of the names, before any rule runs.
-/

namespace PackageConfig

/-- A declared option: the values it may take, the value it has when nobody asks
for one, and the option that must be enabled for it to exist. -/
structure Declaration where
  name : String
  domain : Domain
  default : Value
  parent : Option String
  deriving DecidableEq, Inhabited

/-- The declaration of a switch. -/
def Declaration.flag (name : String) (default : Bool) (parent : Option String := none) :
    Declaration :=
  ⟨name, .boolean, .flag default, parent⟩

/-- A declaration as data; an option without parent shows a null there. -/
def Declaration.toData (d : Declaration) : Data :=
  .table [("name", .text d.name), ("domain", d.domain.toData), ("default", d.default.toData),
    ("parent", (d.parent.map Data.text).getD .null)]

/-- The values asked for, by option. -/
abbrev Request := NameMap Value

/-- The declarations in their order, and the position of each name among them. -/
structure Catalog where
  declarations : List Declaration
  positions : NameMap Nat
  deriving DecidableEq

namespace Catalog

/-- The catalog that declares nothing. -/
def empty : Catalog :=
  ⟨[], .empty⟩

instance : Inhabited Catalog := ⟨empty⟩

/-- Whether an option is declared. -/
def declares (c : Catalog) (name : String) : Bool :=
  c.positions.contains name

/-- The declaration of an option, if there is one. -/
def find? (c : Catalog) (name : String) : Option Declaration :=
  (c.positions.get? name).bind fun position => c.declarations[position]?

/-- The declaration of an option that has to be declared. -/
def require (c : Catalog) (name : String) : Except Fault Declaration :=
  match c.find? name with
  | some declaration => .ok declaration
  | none => .error (.unknownOption name)

/-! ## Declaring -/

/-- A default as it is stored: a text for a boolean option is read as a request
would be, and kept as it is if it cannot be. -/
def readDefault (domain : Domain) (default : Value) : Value :=
  match domain, default with
  | .boolean, .text raw => (Domain.boolean.parse? raw).getD (.text raw)
  | _, value => value

/-- Add a declaration at the end. Its name must be new, its default in its
domain, and its parent declared. -/
def declare (c : Catalog) (d : Declaration) : Except Fault Catalog := do
  if c.declares d.name then throw (.duplicateOption d.name)
  let default := readDefault d.domain d.default
  if !d.domain.contains default then
    throw (.outsideDomain d.name default.shown d.domain)
  if let some parent := d.parent then
    if !c.declares parent then throw (.unknownOption parent)
  return ⟨c.declarations ++ [{ d with default }],
    c.positions.insert d.name c.declarations.length⟩

/-! ## Checking values -/

/-- Refuse a value that is outside the domain of its option. -/
def check (c : Catalog) (name : String) (value : Value) : Except Fault Unit := do
  let d ← c.require name
  if d.domain.contains value then return ()
  else throw (.outsideDomain name value.shown d.domain)

/-- Read a text as a value of an option. -/
def read (c : Catalog) (name raw : String) : Except Fault Value := do
  let d ← c.require name
  match d.domain.parse? raw with
  | some value => return value
  | none => throw (.outsideDomain name raw d.domain)

/-- Bring a requested value into the domain of its option: a text for a boolean
option is read, any other value must lie in the domain as it is. -/
def accept (c : Catalog) (name : String) (value : Value) : Except Fault Value := do
  let d ← c.require name
  match d.domain, value with
  | .boolean, .text raw => c.read name raw
  | _, value => do
    c.check name value
    return value

/-! ## Defaults and requests -/

/-- Every declared option, present at its default. -/
def defaults (c : Catalog) : Configuration :=
  ⟨NameMap.ofList (c.declarations.map fun d => (d.name, .present d.default))⟩

/-- Lay requested values over a configuration, one after another, until one is refused. -/
def startFrom (c : Catalog) :
    List (String × Value) → Configuration → Except Fault Configuration
  | [], config => .ok config
  | (name, value) :: rest, config => do
    let value ← c.accept name value
    c.startFrom rest ⟨config.states.insert name (.present value)⟩

/-- What a resolution starts from: the defaults with a request laid over them. The
first name, in the order of names, that is not declared or whose value is not
acceptable is a fault. -/
def start (c : Catalog) (request : Request) : Except Fault Configuration :=
  c.startFrom request.entries c.defaults

end Catalog

end PackageConfig
