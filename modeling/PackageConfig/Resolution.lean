import PackageConfig.Recipe

/-!
A resolution: everything that one recipe, one platform and one request
determine. Each part is computed from the final configuration, and any fault on the
way leaves no resolution at all.
-/

namespace PackageConfig

/-- The outcome of resolving a request for a platform. -/
structure Resolution where
  platform : Platform
  linkage : Linkage
  config : Configuration
  pins : PinSet
  table : Variables
  deriving DecidableEq, Inhabited

namespace Recipe

/-- Resolve a request for a platform. -/
def resolve (recipe : Recipe) (platform : Platform) (request : Request) :
    Except Fault Resolution := do
  let config ← recipe.configure platform request
  let linkage ← Linkage.ofOption config recipe.linkageOption
  let pins ← PinSet.ofRules recipe.pinRules config
  let table ← recipe.variableRules.table config linkage
  return ⟨platform, linkage, config, pins, table⟩

end Recipe

/-- A resolution as data. -/
def Resolution.toData (r : Resolution) : Data :=
  .table [("platform", r.platform.toData), ("build_mode", .text r.linkage.name),
    ("options", r.config.toData), ("requirements", r.pins.toData),
    ("variables", Variables.toData r.table)]

end PackageConfig
