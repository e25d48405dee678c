import PackageConfig.Manifest

/-!
Manifests as data. A manifest is written with the keys that people write in a
recipe file; fields that are not set are left out, and lists that select nothing
too. Reading refuses unknown keys in every table, and takes what writing leaves
out as not set; its first argument is the dialect that the tree was written in.
-/

namespace PackageConfig

/-- The field of a value that may be missing: written only when it is there. -/
def Data.optionalField {α : Type} (key : String) (write : α → Data) (value : Option α) :
    List (String × Data) :=
  match value with
  | none => []
  | some value => [(key, write value)]

/-- The field of a list of texts: written only when the list is not empty. -/
def Data.textsField (key : String) (items : List String) : List (String × Data) :=
  if items.isEmpty then [] else [(key, .texts items)]

/-- Read a list of texts. -/
def Data.texts? (d : Data) : Option (List String) :=
  d.list? Data.text?

/-! ## Options -/

namespace OptionRow

/-- The keys of an option table. -/
def keys : List String := ["name", "default", "values", "parent"]

/-- An option as data. -/
def toData (row : OptionRow) : Data :=
  .table ([("name", .text row.name), ("default", row.default.toData)] ++
    Data.optionalField "values" .texts row.values ++
    Data.optionalField "parent" .text row.parent)

/-- Read an option. -/
def ofData? (dialect : Data.Dialect) (d : Data) : Option OptionRow := do
  let record ← d.record? dialect keys
  return {
    name := ← record.required "name" Data.text?
    default := ← record.required "default" Value.ofData?
    values := ← record.optional "values" Data.texts?
    parent := ← record.optional "parent" Data.text? }

end OptionRow

/-! ## Prune rules -/

namespace Assignment

/-- An assignment as data. -/
def toData (a : Assignment) : Data :=
  .table [("option", .text a.option), ("value", a.value.toData)]

/-- Read an assignment. -/
def ofData? (dialect : Data.Dialect) (d : Data) : Option Assignment := do
  let record ← d.record? dialect ["option", "value"]
  return {
    option := ← record.required "option" Data.text?
    value := ← record.required "value" Value.ofData? }

end Assignment

namespace PruneRow

/-- The keys of a prune table. -/
def keys : List String := ["when", "os", "compiler", "arch", "remove", "force"]

/-- A prune rule as data. -/
def toData (row : PruneRow) : Data :=
  .table (Data.optionalField "when" Assignment.toData row.condition ++
    Data.textsField "os" (row.target.os.map Os.name) ++
    Data.textsField "compiler" (row.target.compiler.map Compiler.name) ++
    Data.textsField "arch" (row.target.arch.map Arch.name) ++
    Data.optionalField "remove" .text row.remove ++
    Data.optionalField "force" Assignment.toData row.force)

/-- Read a prune rule. -/
def ofData? (dialect : Data.Dialect) (d : Data) : Option PruneRow := do
  let record ← d.record? dialect keys
  return {
    condition := ← record.optional "when" (Assignment.ofData? dialect)
    target := {
      os := ← record.orElse "os" [] (·.list? (Data.named? dialect Os.named?))
      compiler := ← record.orElse "compiler" [] (·.list? (Data.named? dialect Compiler.named?))
      arch := ← record.orElse "arch" [] (·.list? (Data.named? dialect Arch.named?)) }
    remove := ← record.optional "remove" Data.text?
    force := ← record.optional "force" (Assignment.ofData? dialect) }

end PruneRow

/-! ## Pins -/

namespace PinRow

/-- A rule on pins as data. -/
def toData (row : PinRow) : Data :=
  .table [("when", .texts row.options), ("requires", .texts row.pins)]

/-- Read a rule on pins. -/
def ofData? (dialect : Data.Dialect) (d : Data) : Option PinRow := do
  let record ← d.record? dialect ["when", "requires"]
  return {
    options := ← record.required "when" Data.texts?
    pins := ← record.required "requires" Data.texts? }

end PinRow

/-! ## Variables -/

namespace VariableRow

/-- The keys of a variable table. -/
def keys : List String := ["name", "option", "value", "any_of", "or_shared", "driver"]

/-- A variable as data. -/
def toData (row : VariableRow) : Data :=
  .table ([("name", .text row.name)] ++
    Data.optionalField "option" .text row.option ++
    Data.optionalField "value" Value.toData row.value ++
    Data.textsField "any_of" row.anyOf ++
    [("or_shared", .switch row.orShared)] ++
    Data.optionalField "driver" .text row.driver)

/-- Read a variable. -/
def ofData? (dialect : Data.Dialect) (d : Data) : Option VariableRow := do
  let record ← d.record? dialect keys
  return {
    name := ← record.required "name" Data.text?
    option := ← record.optional "option" Data.text?
    value := ← record.optional "value" Value.ofData?
    anyOf := ← record.orElse "any_of" [] Data.texts?
    orShared := ← record.orElse "or_shared" false Data.switch?
    driver := ← record.optional "driver" Data.text? }

end VariableRow

/-! ## Manifests -/

namespace Manifest

/-- The keys of a manifest. -/
def keys : List String :=
  ["build_mode_option", "variable_prefix", "option", "prune", "requirement", "variable"]

/-- A manifest as data. -/
def toData (m : Manifest) : Data :=
  .table [("build_mode_option", .text m.linkageOption), ("variable_prefix", .text m.lead),
    ("option", .list (m.options.map OptionRow.toData)),
    ("prune", .list (m.prune.map PruneRow.toData)),
    ("requirement", .list (m.pins.map PinRow.toData)),
    ("variable", .list (m.variableRows.map VariableRow.toData))]

/-- Read a manifest. -/
def ofData? (dialect : Data.Dialect) (d : Data) : Option Manifest := do
  let record ← d.record? dialect keys
  return {
    linkageOption := ← record.orElse "build_mode_option" Recipe.BuiltIn.linkageOption Data.text?
    lead := ← record.orElse "variable_prefix" "" Data.text?
    options := ← record.orElse "option" [] (·.list? (OptionRow.ofData? dialect))
    prune := ← record.orElse "prune" [] (·.list? (PruneRow.ofData? dialect))
    pins := ← record.orElse "requirement" [] (·.list? (PinRow.ofData? dialect))
    variableRows := ← record.orElse "variable" [] (·.list? (VariableRow.ofData? dialect)) }

end Manifest

end PackageConfig
