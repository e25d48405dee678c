import PackageConfig.Options.Catalog
import PackageConfig.Pin.Set

/-!
The pins that a configuration needs. A rule says which components are required
when all of some options are enabled; together, the rules that apply make one set
of pins, unless two of them pin a component to different versions.
-/

namespace PackageConfig

/-- When every listed option is enabled, every listed component is required. -/
structure PinRule where
  options : List String
  pins : List Pin
  deriving DecidableEq, Inhabited

namespace PinRule

/-- Whether all of some options are enabled. The first that is not decides, and
the options after it are not looked up. -/
def allEnabled (config : Configuration) : List String → Except Fault Bool
  | [] => .ok true
  | option :: options => do
    if ← config.enabled option then allEnabled config options else return false

/-- Whether the rule applies to a final configuration. -/
def holds (rule : PinRule) (config : Configuration) : Except Fault Bool :=
  allEnabled config rule.options

/-- Refuse a rule that lists no option or no component, or an undeclared option. -/
def check (rule : PinRule) (c : Catalog) : Except Fault Unit := do
  if rule.options.isEmpty || rule.pins.isEmpty then
    throw (.invalidManifest
      (.hollowRule rule.options (rule.pins.map Pin.shown)))
  rule.options.forM fun option => do
    let _ ← c.require option
    return ()

/-- A rule from the names of options and the written forms of pins, which are read
until one is malformed. -/
def ofTexts (options pins : List String) : Except Fault PinRule := do
  return ⟨options, ← pins.mapM Pin.read⟩

end PinRule

namespace PinSet

/-- Add to a set what each rule that applies requires, in the order of the rules. -/
def addRules (config : Configuration) : List PinRule → PinSet → Except Fault PinSet
  | [], set => .ok set
  | rule :: rules, set => do
    if ← rule.holds config then addRules config rules (← set.insertAll rule.pins)
    else addRules config rules set

/-- What the rules that apply to a final configuration require together. -/
def ofRules (rules : List PinRule) (config : Configuration) : Except Fault PinSet :=
  addRules config rules empty

end PinSet

end PackageConfig
