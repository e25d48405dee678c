import PackageConfig.Options.Closure
import PackageConfig.Rules.Pin
import PackageConfig.Rules.Prune
import PackageConfig.Rules.Variable

/-!
A recipe is the complete rule set of one package. It is checked once, when it is
assembled: every rule then speaks of declared options and of values in their
domains, and running the rules can no longer meet an unknown option.
-/

namespace PackageConfig

/-- The declared options and every table of rules over them, with the option
that selects a shared build. -/
structure Recipe where
  catalog : Catalog
  pruneRules : PruneRules
  pinRules : List PinRule
  variableRules : VariableRules
  linkageOption : String
  deriving DecidableEq, Inhabited

namespace Recipe

/-- Refuse a recipe of which the linkage option or a rule does not fit the
declarations. The tables are checked in the order of their fields. -/
def check (recipe : Recipe) : Except Fault Unit := do
  let _ ← recipe.catalog.require recipe.linkageOption
  recipe.pruneRules.check recipe.catalog
  recipe.pinRules.forM (·.check recipe.catalog)
  recipe.variableRules.check recipe.catalog

/-- Put a recipe together from its parts, if they fit each other. -/
def assemble (catalog : Catalog) (pruneRules : PruneRules) (pinRules : List PinRule)
    (variableRules : VariableRules) (linkageOption : String) : Except Fault Recipe := do
  let recipe : Recipe := ⟨catalog, pruneRules, pinRules, variableRules, linkageOption⟩
  recipe.check
  return recipe

/-- The final configuration: the request over the defaults, then the
pruning rules, then the closing. -/
def configure (recipe : Recipe) (platform : Platform) (request : Request) :
    Except Fault Configuration := do
  let config ← recipe.catalog.start request
  return recipe.catalog.close (recipe.pruneRules.run platform config)

end Recipe

end PackageConfig
