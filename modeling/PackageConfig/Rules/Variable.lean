import PackageConfig.Linkage
import PackageConfig.Options.Catalog
import PackageConfig.Text.Split

/-!
Build variables: the flat table that a resolution hands to the build driver.

Every rule makes one variable, whatever was removed: an option that is absent
reads as `false`. A variable has a logical name, which is its key in the table,
and a driver name, which is what the build driver sees.
-/

namespace PackageConfig

/-! ## Rules -/

/-- A trigger of a composite variable: an option is enabled, or the build is shared. -/
inductive Trigger where
  | option (name : String)
  | sharedBuild
  deriving DecidableEq, Inhabited

/-- Where a variable takes its value from. -/
inductive VariableSource where
  /-- From an option: its value, or `false` while it is absent. -/
  | option (name : String)
  | constant (value : Value)
  /-- From several triggers: whether any of them holds. -/
  | anyOf (triggers : List Trigger)
  deriving DecidableEq, Inhabited

/-- Whether some trigger holds. The first that does decides, and those after it are
not looked at. -/
def Trigger.anyHolds (config : Configuration) (linkage : Linkage) :
    List Trigger → Except Fault Bool
  | [] => .ok false
  | .option name :: triggers => do
    if ← config.enabled name then return true else anyHolds config linkage triggers
  | .sharedBuild :: triggers =>
    if linkage.isShared then .ok true else anyHolds config linkage triggers

/-- The value that a source has in a final configuration. -/
def VariableSource.value (source : VariableSource) (config : Configuration) (linkage : Linkage) :
    Except Fault Value :=
  match source with
  | .option name => (config.value name).map (·.getD (.flag false))
  | .constant value => .ok value
  | .anyOf triggers => (Trigger.anyHolds config linkage triggers).map .flag

/-- One variable: its logical name, its source, and the driver name if it is not
the usual one. -/
structure VariableRule where
  name : String
  source : VariableSource
  driver : Option String := none
  deriving DecidableEq, Inhabited

/-- The variables of a resolution by logical name. -/
abbrev Variables := NameMap Value

/-- The rules of a variable table. The usual driver name of a variable is
`lead` followed by its logical name in capitals. -/
structure VariableRules where
  lead : String
  rules : List VariableRule
  deriving DecidableEq, Inhabited

namespace VariableRules

/-- Add a rule at the end. -/
def add (v : VariableRules) (rule : VariableRule) : VariableRules :=
  { v with rules := v.rules ++ [rule] }

/-- The name that the build driver sees. -/
def driverName (v : VariableRules) (rule : VariableRule) : String :=
  rule.driver.getD (v.lead ++ Text.upperAscii rule.name)

/-- The options that feed a variable by themselves, in the order of the rules. -/
def directOptions (v : VariableRules) : List String :=
  v.rules.filterMap fun rule =>
    match rule.source with
    | .option name => some name
    | _ => none

/-! ## Checking -/

/-- The names that the rules checked so far have taken. -/
structure Taken where
  names : List String := []
  driverNames : List String := []
  sources : List String := []

/-- Refuse a rule whose source names an undeclared option, or an option that
feeds another variable by itself; answer the options taken after the rule. -/
def checkSource (c : Catalog) (rule : VariableRule) (sources : List String) :
    Except Fault (List String) :=
  match rule.source with
  | .option name => do
    let _ ← c.require name
    if sources.contains name then
      throw (.duplicateVariable (.sameSource rule.name name))
    return name :: sources
  | .constant _ => return sources
  | .anyOf triggers => do
    triggers.forM fun
      | .option name => do
        let _ ← c.require name
        return ()
      | .sharedBuild => return ()
    return sources

/-- Refuse rules that repeat a logical or driver name of each other or of rules
before them, or whose sources do not fit. -/
def checkRules (v : VariableRules) (c : Catalog) :
    List VariableRule → Taken → Except Fault Unit
  | [], _ => .ok ()
  | rule :: rules, taken => do
    if taken.names.contains rule.name then
      throw (.duplicateVariable (.sameName rule.name))
    let driver := v.driverName rule
    if taken.driverNames.contains driver then
      throw (.duplicateVariable (.sameDriverName driver))
    let sources ← checkSource c rule taken.sources
    v.checkRules c rules ⟨rule.name :: taken.names, driver :: taken.driverNames, sources⟩

/-- Refuse a table that names a variable twice, feeds two variables from one
option, or names an undeclared option. -/
def check (v : VariableRules) (c : Catalog) : Except Fault Unit :=
  v.checkRules c v.rules {}

/-! ## From rules to variables -/

/-- Add to a table one variable for each rule. -/
def addEach (config : Configuration) (linkage : Linkage) :
    List VariableRule → Variables → Except Fault Variables
  | [], table => .ok table
  | rule :: rules, table => do
    let value ← rule.source.value config linkage
    addEach config linkage rules (table.insert rule.name value)

/-- The variables that the rules make of a final configuration. -/
def table (v : VariableRules) (config : Configuration) (linkage : Linkage) :
    Except Fault Variables :=
  addEach config linkage v.rules .empty

/-! ## What the build driver reads -/

/-- One argument for the build driver. -/
def argument (name : String) (value : Value) : String :=
  "-D" ++ name ++ "=" ++ value.driverText

/-- One argument for each rule that has a variable in the table, in the order of
the rules. -/
def arguments (v : VariableRules) (table : Variables) : List String :=
  v.rules.filterMap fun rule =>
    (table.get? rule.name).map fun value => argument (v.driverName rule) value

/-- The characters of a text between the quotes of a CMake argument: every backslash
is written twice, and then every quote takes a backslash in front. -/
def cmakeEscape (cs : List Char) : List Char :=
  Text.replaceChars '"' ['\\', '"'] (Text.replaceChars '\\' ['\\', '\\'] cs)

/-- One line of a CMake initial cache. -/
def cmakeLine (name : String) : Value → String
  | .flag on => "set(" ++ name ++ " " ++ (Value.flag on).driverText ++ " CACHE BOOL \"\")\n"
  | .text s =>
    "set(" ++ name ++ " \"" ++ String.ofList (cmakeEscape s.toList) ++ "\" CACHE STRING \"\")\n"

/-- A CMake initial cache: one line for each rule that has a variable in the
table, in the order of the rules. -/
def cmakeScript (v : VariableRules) (table : Variables) : String :=
  String.join (v.rules.filterMap fun rule =>
    (table.get? rule.name).map fun value => cmakeLine (v.driverName rule) value)

end VariableRules

/-- A variable table as data, by logical name. -/
def Variables.toData (table : Variables) : Data :=
  .table (table.entries.map fun entry => (entry.1, entry.2.toData))

end PackageConfig
