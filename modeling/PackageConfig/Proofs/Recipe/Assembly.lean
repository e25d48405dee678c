import PackageConfig.Proofs.Recipe.Validity

/-!
Which tables of rules make a recipe.

The check of a recipe reads the tables one after another, stops at the first fault, and keeps the
names that the variables have taken so far. What passes it is said here of the tables as they are
listed: of the names and domains that the declarations list (`Lists`, `Takes`), and of any two
variables, in whatever order.
-/

namespace PackageConfig

/-! ## Options as they are declared -/

namespace Catalog

variable {c : Catalog}

/-- One of the declarations has this name. -/
def Lists (c : Catalog) (option : String) : Prop :=
  ∃ d ∈ c.declarations, d.name = option

/-- One of the declarations has the name of the option, and the value in its domain. -/
def Takes (c : Catalog) (target : Assignment) : Prop :=
  ∃ d ∈ c.declarations, d.name = target.option ∧ d.domain.contains target.value = true

/-- An action removes an option of the declarations, or forces a value in the domain of one. -/
def Allows (c : Catalog) : PruneAction → Prop
  | .remove option => c.Lists option
  | .force target => c.Takes target

theorem WellFormed.lists_iff (wf : c.WellFormed) {option : String} :
    c.Lists option ↔ c.declares option = true :=
  wf.declares_iff.symm

theorem WellFormed.takes_iff (wf : c.WellFormed) {target : Assignment} :
    c.Takes target ↔ c.Admits target.option target.value := by
  unfold Takes Admits
  simp only [wf.find?_eq_some_iff, and_assoc]

theorem WellFormed.allows_iff (wf : c.WellFormed) {action : PruneAction} :
    c.Allows action ↔ action.Fits c := by
  cases action with
  | remove option => exact wf.lists_iff
  | force target => exact wf.takes_iff

end Catalog

/-! ## Options behind variables -/

/-- A source takes its value from an option, or has the option among its triggers. -/
def VariableSource.Reads (source : VariableSource) (option : String) : Prop :=
  source = .option option ∨ ∃ triggers, source = .anyOf triggers ∧ .option option ∈ triggers

theorem VariableSource.mem_options_iff {source : VariableSource} {option : String} :
    option ∈ source.options ↔ source.Reads option := by
  unfold Reads
  cases source with
  | option name => simp [options, eq_comm]
  | constant value => simp [options]
  | anyOf triggers =>
    have read : ∀ trigger : Trigger, trigger.option? = some option ↔ trigger = .option option := by
      intro trigger
      cases trigger <;> simp [Trigger.option?]
    simp [options, read]

/-- No option feeds two variables by itself. -/
theorem VariableRules.directOptions_nodup_iff {v : VariableRules} :
    v.directOptions.Nodup ↔ v.rules.Pairwise fun first second =>
      ∀ option, first.source = .option option → second.source ≠ .option option := by
  have feeds : ∀ (rule : VariableRule) option,
      rule.source.direct? = some option ↔ rule.source = .option option := by
    intro rule option
    cases rule.source <;> simp [VariableSource.direct?]
  have listed : v.directOptions = v.rules.filterMap fun rule => rule.source.direct? := rfl
  rw [listed, List.Nodup, List.pairwise_filterMap]
  simp only [feeds]
  refine List.Pairwise.iff fun first second => ?_
  constructor
  · intro apart option here there
    exact apart option here option there rfl
  · rintro apart option here other there rfl
    exact apart option here there

namespace Recipe

/-- Tables of rules over declared options are put together, and make the recipe of just these
tables, exactly when they are well formed: the linkage option is declared; conditions and forced
values lie in the domains of declared options, and removed options are declared; a rule on pins
lists an option and a component, and its options are declared; and among the variables no name
repeats, no driver name does, whether it is given or made from the name in capitals, every option
that one reads is declared, and none feeds two of them by itself. -/
theorem assembles_iff (calls : List Declaration) (pruneRules : PruneRules)
    (pinRules : List PinRule) (variableRules : VariableRules) (linkageOption : String)
    (recipe : Recipe) :
    let c := Catalog.ofCalls calls
    assemble c pruneRules pinRules variableRules linkageOption = .ok recipe ↔
      recipe = ⟨c, pruneRules, pinRules, variableRules, linkageOption⟩ ∧
      c.Lists linkageOption ∧
      (∀ rule ∈ pruneRules.optionRules, c.Takes rule.condition ∧ c.Allows rule.action) ∧
      (∀ rule ∈ pruneRules.platformRules, c.Allows rule.action) ∧
      (∀ rule ∈ pinRules, rule.options ≠ [] ∧ rule.pins ≠ [] ∧
        ∀ option ∈ rule.options, c.Lists option) ∧
      (variableRules.rules.map VariableRule.name).Nodup ∧
      (variableRules.rules.map fun rule =>
        rule.driver.getD (variableRules.lead ++ Text.upperAscii rule.name)).Nodup ∧
      (∀ rule ∈ variableRules.rules, ∀ option, rule.source.Reads option → c.Lists option) ∧
      variableRules.rules.Pairwise fun first second =>
        ∀ option, first.source = .option option → second.source ≠ .option option := by
  intro c
  have wf : c.WellFormed := Catalog.wellFormed_ofCalls calls
  simp only [wf.lists_iff, wf.takes_iff, wf.allows_iff, ← VariableSource.mem_options_iff,
    ← VariableRules.directOptions_nodup_iff]
  rw [assemble_eq_ok_iff]
  refine and_congr_right fun same => ?_
  subst same
  rw [check_eq_ok_iff wf]
  constructor
  · intro fits
    have prune := fits.pruneRules
    have table := fits.variableRules
    refine ⟨fits.linkageOption, fun rule mem => ?_, prune.platformActions, fun rule mem => ?_,
      table.names_nodup, table.driverNames_nodup, table.declared, table.directOptions_nodup⟩
    · exact ⟨(prune.optionRules rule mem).condition, (prune.optionRules rule mem).action⟩
    · have fit := fits.pinRules rule mem
      exact ⟨fit.options_ne_nil, fit.pins_ne_nil, fit.declared⟩
  · rintro ⟨linkage, options, platform, pins, names, drivers, read, direct⟩
    refine ⟨linkage, ⟨fun rule mem => ?_, platform⟩, fun rule mem => ?_,
      ⟨names, drivers, read, direct⟩⟩
    · exact ⟨(options rule mem).1, (options rule mem).2⟩
    · obtain ⟨someOption, somePin, declared⟩ := pins rule mem
      exact ⟨someOption, somePin, declared⟩

end Recipe

end PackageConfig
