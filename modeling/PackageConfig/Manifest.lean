import PackageConfig.Recipe
import PackageConfig.Recipe.BuiltIn

/-!
A manifest: a recipe written down as data. This module holds the rows of a
manifest and how a recipe is put together from them; `Manifest/Data` reads and
writes them.

Rows are taken in the order in which they are listed, so a parent has to be listed
before its children. A prune row with a condition on an option is a rule on that
option, any other is a rule on the platform.
-/

namespace PackageConfig

/-- A declared option: a switch, unless it lists its values. -/
structure OptionRow where
  name : String
  default : Value
  values : Option (List String) := none
  parent : Option String := none
  deriving DecidableEq, Inhabited

/-- A prune rule, with room for every condition and every action. -/
structure PruneRow where
  condition : Option Assignment := none
  target : PlatformFilter := {}
  remove : Option String := none
  force : Option Assignment := none
  deriving DecidableEq, Inhabited

/-- A rule on pins, the pins in their written form. -/
structure PinRow where
  options : List String
  pins : List String
  deriving DecidableEq, Inhabited

/-- A variable, with room for every kind of source. -/
structure VariableRow where
  name : String
  option : Option String := none
  value : Option Value := none
  anyOf : List String := []
  orShared : Bool := false
  driver : Option String := none
  deriving DecidableEq, Inhabited

/-- A whole recipe as data. -/
structure Manifest where
  linkageOption : String := Recipe.BuiltIn.linkageOption
  lead : String := ""
  options : List OptionRow := []
  prune : List PruneRow := []
  pins : List PinRow := []
  variableRows : List VariableRow := []
  deriving DecidableEq, Inhabited

/-! ## From rows to rules -/

/-- The declaration that a row makes. -/
def OptionRow.declaration (row : OptionRow) : Except Fault Declaration :=
  match row.values with
  | none => .ok ⟨row.name, .boolean, row.default, row.parent⟩
  | some [] => .error (.invalidManifest (.noValues row.name))
  | some values => .ok ⟨row.name, .enumeration values, row.default, row.parent⟩

/-- The one action of a row. -/
def PruneRow.action (row : PruneRow) : Except Fault PruneAction :=
  match row.remove, row.force with
  | some option, none => .ok (.remove option)
  | none, some target => .ok (.force target)
  | _, _ => .error (.invalidManifest .actionCount)

/-- Add the rule that a row makes to the table it belongs to. -/
def PruneRow.addTo (row : PruneRow) (pruneRules : PruneRules) : Except Fault PruneRules := do
  let action ← row.action
  match row.condition with
  | none => return pruneRules.addPlatformRule ⟨row.target, action⟩
  | some condition =>
    if row.target ≠ .any then
      throw (.invalidManifest (.mixedCondition action.option))
    return pruneRules.addOptionRule ⟨condition, action⟩

/-- The rule on pins that a row makes. -/
def PinRow.rule (row : PinRow) : Except Fault PinRule :=
  PinRule.ofTexts row.options row.pins

/-- Whether a row has triggers for a composite variable. -/
def VariableRow.isComposite (row : VariableRow) : Bool :=
  !row.anyOf.isEmpty || row.orShared

/-- The triggers of a composite variable, that of the shared build first. -/
def VariableRow.triggers (row : VariableRow) : List Trigger :=
  (if row.orShared then [.sharedBuild] else []) ++ row.anyOf.map .option

/-- The one source of a row. -/
def VariableRow.source (row : VariableRow) : Except Fault VariableSource :=
  match row.option, row.value, row.isComposite with
  | some option, none, false => .ok (.option option)
  | none, some value, false => .ok (.constant value)
  | none, none, true => .ok (.anyOf row.triggers)
  | _, _, _ => .error (.invalidManifest (.sourceCount row.name))

/-- The variable rule that a row makes. -/
def VariableRow.rule (row : VariableRow) : Except Fault VariableRule := do
  return ⟨row.name, ← row.source, row.driver⟩

/-! ## From a manifest to a recipe -/

namespace Manifest

/-- The catalog that declares the options in their order. -/
def catalog (m : Manifest) : Except Fault Catalog :=
  m.options.foldlM (fun catalog row => do catalog.declare (← row.declaration)) .empty

/-- The rules of the prune rows, each kind in its order. -/
def pruneRules (m : Manifest) : Except Fault PruneRules :=
  m.prune.foldlM (fun pruneRules row => row.addTo pruneRules) .empty

/-- The recipe that a manifest describes. Options are read first, then the rules,
table by table, and last the rules are checked against the options. -/
def toRecipe (m : Manifest) : Except Fault Recipe := do
  let catalog ← m.catalog
  let pruneRules ← m.pruneRules
  let pinRules ← m.pins.mapM PinRow.rule
  let rules ← m.variableRows.mapM VariableRow.rule
  Recipe.assemble catalog pruneRules pinRules ⟨m.lead, rules⟩ m.linkageOption

end Manifest

end PackageConfig
