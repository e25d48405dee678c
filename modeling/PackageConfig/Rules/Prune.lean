import PackageConfig.Options.Catalog

/-!
Pruning: ordered rules that remove options, or give them fixed values, where
they make no sense for other options or for the platform.

The rules on options run first, each on the configuration that the rules before it
left; then the rules on the platform. A removal is final: an option that was
removed is neither forced back nor given a second cause.
-/

namespace PackageConfig

/-! ## Conditions -/

/-- A condition on the platform. A part that lists nothing accepts everything. -/
structure PlatformFilter where
  os : List Os := []
  compiler : List Compiler := []
  arch : List Arch := []
  deriving DecidableEq, Inhabited

namespace PlatformFilter

/-- The condition that every platform meets. -/
def any : PlatformFilter := {}

/-- Whether a list of accepted items accepts one. -/
def accepts {α : Type} [BEq α] (items : List α) (item : α) : Bool :=
  items.isEmpty || items.contains item

/-- Whether a platform meets the condition in all three parts. -/
def holds (m : PlatformFilter) (p : Platform) : Bool :=
  accepts m.os p.os && accepts m.compiler p.compiler && accepts m.arch p.arch

/-- The accepted names of one part, unless it accepts everything. -/
def shownPart (part : String) (names : List String) : List String :=
  if names.isEmpty then [] else [part ++ "=" ++ Text.join "|" names]

/-- The condition as descriptions word it. -/
def shown (m : PlatformFilter) : String :=
  let parts := shownPart "os" (m.os.map Os.name) ++
    shownPart "compiler" (m.compiler.map Compiler.name) ++
    shownPart "arch" (m.arch.map Arch.name)
  if parts.isEmpty then "any platform" else Text.join " " parts

/-- The condition as data. -/
def toData (m : PlatformFilter) : Data :=
  .table [("os", .texts (m.os.map Os.name)), ("compiler", .texts (m.compiler.map Compiler.name)),
    ("arch", .texts (m.arch.map Arch.name))]

end PlatformFilter

/-- An option and a value: as a condition, that the option holds the value; as an
action, that the option is given it. -/
structure Assignment where
  option : String
  value : Value
  deriving DecidableEq, Inhabited

namespace Assignment

/-- Whether the option is present with exactly this value. -/
def holds (a : Assignment) (config : Configuration) : Bool :=
  config.get? a.option == some (.present a.value)

/-- The assignment as descriptions word it. -/
def shown (a : Assignment) : String :=
  a.option ++ "=" ++ a.value.shown

/-- Refuse an undeclared option, and a value outside the domain of its option. -/
def check (a : Assignment) (c : Catalog) : Except Fault Unit :=
  c.check a.option a.value

end Assignment

/-! ## Rules -/

/-- What a rule does to the option it is about. -/
inductive PruneAction where
  | remove (option : String)
  | force (target : Assignment)
  deriving DecidableEq, Inhabited

namespace PruneAction

/-- The option that the action is about. -/
def option : PruneAction → String
  | .remove option => option
  | .force target => target.option

/-- The action as descriptions word it. -/
def shown : PruneAction → String
  | .remove option => "remove " ++ option
  | .force target => "force " ++ target.shown

/-- The configuration after the action; `cause` is recorded where it removes an option. -/
def run (action : PruneAction) (cause : Cause) (config : Configuration) : Configuration :=
  match action with
  | .remove option => config.remove option cause
  | .force target => config.force target.option target.value

/-- Refuse an action on an undeclared option, or one that forces a value outside
the domain of its option. -/
def check (action : PruneAction) (c : Catalog) : Except Fault Unit :=
  match action with
  | .remove option => do
    let _ ← c.require option
    return ()
  | .force target => target.check c

end PruneAction

/-- A rule on an option: while the option holds a value, act. -/
structure OptionRule where
  condition : Assignment
  action : PruneAction
  deriving DecidableEq, Inhabited

namespace OptionRule

/-- The rule in words, as removals by it record it. -/
def describe (rule : OptionRule) : String :=
  rule.action.shown ++ " when " ++ rule.condition.shown

/-- The configuration after the rule, whose condition is tried on the configuration
before it. -/
def run (rule : OptionRule) (config : Configuration) : Configuration :=
  if rule.condition.holds config then rule.action.run (.optionRule rule.describe) config else config

/-- Refuse a rule whose condition or action does not fit the declarations. -/
def check (rule : OptionRule) (c : Catalog) : Except Fault Unit := do
  rule.condition.check c
  rule.action.check c

end OptionRule

/-- A rule on the platform: on the platforms that match, act. -/
structure PlatformRule where
  condition : PlatformFilter
  action : PruneAction
  deriving DecidableEq, Inhabited

namespace PlatformRule

/-- The rule in words, as removals by it record it. -/
def describe (rule : PlatformRule) : String :=
  rule.action.shown ++ " when " ++ rule.condition.shown

/-- The configuration after the rule. -/
def run (rule : PlatformRule) (p : Platform) (config : Configuration) : Configuration :=
  if rule.condition.holds p then rule.action.run (.platformRule rule.describe) config else config

/-- Refuse a rule whose action does not fit the declarations. -/
def check (rule : PlatformRule) (c : Catalog) : Except Fault Unit :=
  rule.action.check c

end PlatformRule

/-! ## Tables of rules -/

/-- The two tables of rules, each in the order in which its rules run. -/
structure PruneRules where
  optionRules : List OptionRule
  platformRules : List PlatformRule
  deriving DecidableEq, Inhabited

namespace PruneRules

/-- The tables without rules. -/
def empty : PruneRules := ⟨[], []⟩

/-- Add a rule on an option at the end of its table. -/
def addOptionRule (p : PruneRules) (rule : OptionRule) : PruneRules :=
  { p with optionRules := p.optionRules ++ [rule] }

/-- Add a rule on the platform at the end of its table. -/
def addPlatformRule (p : PruneRules) (rule : PlatformRule) : PruneRules :=
  { p with platformRules := p.platformRules ++ [rule] }

/-- Refuse tables of which a rule does not fit the declarations. -/
def check (p : PruneRules) (c : Catalog) : Except Fault Unit := do
  p.optionRules.forM (·.check c)
  p.platformRules.forM (·.check c)

/-- The configuration after all rules on options. -/
def runOptionRules (p : PruneRules) (config : Configuration) : Configuration :=
  p.optionRules.foldl (fun config rule => rule.run config) config

/-- The configuration after all rules on the platform. -/
def runPlatformRules (p : PruneRules) (platform : Platform) (config : Configuration) :
    Configuration :=
  p.platformRules.foldl (fun config rule => rule.run platform config) config

/-- The configuration after both tables. -/
def run (p : PruneRules) (platform : Platform) (config : Configuration) : Configuration :=
  p.runPlatformRules platform (p.runOptionRules config)

end PruneRules

end PackageConfig
