import PackageConfig.Recipe
import PackageConfig.Proofs.Options.Start
import PackageConfig.Proofs.Rules.Prune
import PackageConfig.Proofs.Rules.Variable
import Mathlib.Data.List.Nodup

/-!
What is known of a recipe that was assembled.

Every table of rules has a check against the declarations. Its `check_eq_ok_iff` says what
passes it, in terms of declared options, of their domains and of names that do not repeat
(`Fits`). A recipe is `Valid` when declaring options one after another and assembling
the tables has made it; the facts that later proofs need are read off that once, here.
-/

namespace PackageConfig

variable {c : Catalog}

/-! ## Pruning rules -/

namespace PruneAction

/-- The option that an action removes is declared, and a value that it forces lies in the
domain of its option. -/
def Fits (c : Catalog) : PruneAction → Prop
  | .remove option => c.declares option = true
  | .force target => c.Admits target.option target.value

theorem check_eq_ok_iff (wf : c.WellFormed) {action : PruneAction} :
    action.check c = .ok () ↔ action.Fits c := by
  cases action with
  | remove option => exact Outcome.discard_eq_ok_iff.trans wf.exists_require_iff
  | force target => exact Catalog.check_eq_ok_iff

theorem Fits.admits {action : PruneAction} {target : Assignment} (fits : action.Fits c)
    (forced : action.forced? = some target) : c.Admits target.option target.value := by
  cases action with
  | remove option => cases forced
  | force assignment =>
    cases forced
    exact fits

end PruneAction

/-- An option rule waits for a value in the domain of its option, and its action fits. -/
structure OptionRule.Fits (rule : OptionRule) (c : Catalog) : Prop where
  condition : c.Admits rule.condition.option rule.condition.value
  action : rule.action.Fits c

theorem OptionRule.check_eq_ok_iff (wf : c.WellFormed) {rule : OptionRule} :
    rule.check c = .ok () ↔ rule.Fits c := by
  unfold OptionRule.check Assignment.check
  rw [Outcome.check_then_eq_ok_iff, Catalog.check_eq_ok_iff, PruneAction.check_eq_ok_iff wf]
  exact ⟨fun both => ⟨both.1, both.2⟩, fun fits => ⟨fits.condition, fits.action⟩⟩

namespace PruneRules

variable {r : PruneRules} {target : Assignment}

/-- Every rule on options fits, and every action of a rule on the platform does. -/
structure Fits (r : PruneRules) (c : Catalog) : Prop where
  optionRules : ∀ rule ∈ r.optionRules, rule.Fits c
  platformActions : ∀ rule ∈ r.platformRules, rule.action.Fits c

theorem check_eq_ok_iff (wf : c.WellFormed) : r.check c = .ok () ↔ r.Fits c := by
  unfold check PlatformRule.check
  rw [Outcome.check_then_eq_ok_iff, Outcome.forM_eq_ok_iff, Outcome.forM_eq_ok_iff]
  simp only [OptionRule.check_eq_ok_iff wf, PruneAction.check_eq_ok_iff wf]
  exact ⟨fun both => ⟨both.1, both.2⟩, fun fits => ⟨fits.optionRules, fits.platformActions⟩⟩

/-- Whatever a rule forces lies in the domain of its option. -/
theorem Fits.admits_forced (fits : r.Fits c) {p : Platform}
    (forced : target ∈ r.optionForces ∨ target ∈ r.platformForces p) :
    c.Admits target.option target.value := by
  rcases forced with option | platform
  · obtain ⟨rule, mem, forces⟩ := List.mem_filterMap.1 option
    exact (fits.optionRules rule mem).action.admits forces
  · obtain ⟨rule, mem, forces⟩ := List.mem_filterMap.1 platform
    exact (fits.platformActions rule (List.mem_filter.1 mem).1).admits forces

end PruneRules

/-! ## Rules on pins -/

/-- A rule lists an option and a component, and its options are declared. -/
structure PinRule.Fits (rule : PinRule) (c : Catalog) : Prop where
  options_ne_nil : rule.options ≠ []
  pins_ne_nil : rule.pins ≠ []
  declared : ∀ option ∈ rule.options, c.declares option = true

theorem PinRule.check_eq_ok_iff (wf : c.WellFormed) {rule : PinRule} :
    rule.check c = .ok () ↔ rule.Fits c := by
  unfold PinRule.check
  rw [Outcome.check_eq_ok_iff, Outcome.forM_eq_ok_iff]
  simp only [Outcome.discard_eq_ok_iff, wf.exists_require_iff, Bool.or_eq_true,
    List.isEmpty_iff, not_or]
  constructor
  · intro passed
    rcases passed with ⟨⟨options, pins⟩, declared⟩
    exact ⟨options, pins, declared⟩
  · intro fits
    exact ⟨⟨fits.options_ne_nil, fits.pins_ne_nil⟩, fits.declared⟩

/-! ## Rules on variables -/

namespace VariableRules

variable {v : VariableRules} {rule : VariableRule} {rules : List VariableRule}

/-- Names that repeat neither each other nor a name taken before. -/
def Fresh (names taken : List String) : Prop :=
  names.Nodup ∧ names.Disjoint taken

theorem fresh_cons {name : String} {names taken : List String} :
    Fresh (name :: names) taken ↔ name ∉ taken ∧ Fresh names (name :: taken) := by
  unfold Fresh
  rw [List.nodup_cons, List.disjoint_cons_left, List.disjoint_cons_right]
  grind

theorem fresh_toList_append {name : Option String} {names taken : List String} :
    Fresh (name.toList ++ names) taken ↔
      (∀ single, name = some single → single ∉ taken) ∧ Fresh names (name.toList ++ taken) := by
  cases name with
  | none => simp
  | some single => simpa using fresh_cons

theorem checkSource_eq_ok_iff (wf : c.WellFormed) {sources after : List String} :
    checkSource c rule sources = .ok after ↔
      (∀ option ∈ rule.source.options, c.declares option = true) ∧
      (∀ option, rule.source.direct? = some option → option ∉ sources) ∧
      rule.source.direct?.toList ++ sources = after := by
  obtain ⟨name, source, driver⟩ := rule
  cases source with
  | option option =>
    have known : checkSource c ⟨name, .option option, driver⟩ sources = .ok after ↔
        c.declares option = true ∧ option ∉ sources ∧ option :: sources = after := by
      refine Outcome.bind_eq_ok_iff.trans ?_
      simp only [Outcome.check_eq_ok_iff, exists_and_right, wf.exists_require_iff,
        List.contains_iff_mem, pure, Except.pure, Except.ok.injEq]
    simpa [VariableSource.options, VariableSource.direct?] using known
  | constant value =>
    simp [checkSource, VariableSource.options, VariableSource.direct?, pure, Except.pure]
  | anyOf triggers =>
    have known : checkSource c ⟨name, .anyOf triggers, driver⟩ sources = .ok after ↔
        (∀ trigger ∈ triggers, ∀ option, trigger.option? = some option →
          c.declares option = true) ∧ sources = after := by
      refine Outcome.check_then_eq_ok_iff.trans (and_congr ?_ ?_)
      · refine Outcome.forM_eq_ok_iff.trans (forall₂_congr fun trigger _ => ?_)
        cases trigger with
        | option option =>
          refine Outcome.discard_eq_ok_iff.trans ?_
          simp [wf.exists_require_iff, Trigger.option?]
        | sharedBuild => simp [Trigger.option?, pure, Except.pure]
      · simp [pure, Except.pure]
    rw [known]
    simp only [VariableSource.options, VariableSource.direct?, List.mem_filterMap]
    grind

/-- What the rules still to be checked add to the names, driver names and options taken by
the rules before them. -/
theorem checkRules_eq_ok_iff (wf : c.WellFormed) {taken : Taken} :
    v.checkRules c rules taken = .ok () ↔
      Fresh (rules.map VariableRule.name) taken.names ∧
      Fresh (rules.map v.driverName) taken.driverNames ∧
      (∀ rule ∈ rules, ∀ option ∈ rule.source.options, c.declares option = true) ∧
      Fresh (rules.flatMap fun rule => rule.source.direct?.toList) taken.sources := by
  induction rules generalizing taken with
  | nil => simp [checkRules, Fresh]
  | cons rule rest ih =>
    unfold checkRules
    rw [Outcome.check_eq_ok_iff, Outcome.check_eq_ok_iff, Outcome.bind_eq_ok_iff, List.map_cons,
      List.map_cons, fresh_cons, fresh_cons, List.flatMap_cons, fresh_toList_append,
      List.forall_mem_cons]
    simp only [checkSource_eq_ok_iff wf, ih, List.contains_iff_mem]
    grind

theorem directOptions_eq_flatMap (v : VariableRules) :
    v.directOptions = v.rules.flatMap fun rule => rule.source.direct?.toList := by
  rw [← List.filterMap_eq_flatMap_toList]
  rfl

/-- The names of the variables, their driver names and the options that feed them by
themselves do not repeat, and every option that a source reads is declared. -/
structure Fits (v : VariableRules) (c : Catalog) : Prop where
  names_nodup : (v.rules.map VariableRule.name).Nodup
  driverNames_nodup : (v.rules.map v.driverName).Nodup
  declared : ∀ rule ∈ v.rules, ∀ option ∈ rule.source.options, c.declares option = true
  directOptions_nodup : v.directOptions.Nodup

theorem check_eq_ok_iff (wf : c.WellFormed) : v.check c = .ok () ↔ v.Fits c := by
  unfold check
  rw [checkRules_eq_ok_iff wf, ← directOptions_eq_flatMap]
  simp only [Fresh, List.disjoint_nil_right, and_true]
  constructor
  · intro passed
    rcases passed with ⟨names, driverNames, declared, directOptions⟩
    exact ⟨names, driverNames, declared, directOptions⟩
  · intro fits
    exact ⟨fits.names_nodup, fits.driverNames_nodup, fits.declared, fits.directOptions_nodup⟩

end VariableRules

/-! ## Recipes -/

namespace Recipe

variable {recipe : Recipe}

/-- The linkage option is declared, and every table fits the declarations. -/
structure Fits (recipe : Recipe) : Prop where
  linkageOption : recipe.catalog.declares recipe.linkageOption = true
  pruneRules : recipe.pruneRules.Fits recipe.catalog
  pinRules : ∀ rule ∈ recipe.pinRules, rule.Fits recipe.catalog
  variableRules : recipe.variableRules.Fits recipe.catalog

theorem check_eq_ok_iff (wf : recipe.catalog.WellFormed) :
    recipe.check = .ok () ↔ recipe.Fits := by
  unfold check
  rw [Outcome.bind_eq_ok_iff, exists_and_right, wf.exists_require_iff,
    Outcome.check_then_eq_ok_iff, Outcome.check_then_eq_ok_iff, Outcome.forM_eq_ok_iff,
    PruneRules.check_eq_ok_iff wf, VariableRules.check_eq_ok_iff wf]
  simp only [PinRule.check_eq_ok_iff wf]
  constructor
  · intro passed
    rcases passed with ⟨linkageOption, pruneRules, pinRules, variableRules⟩
    exact ⟨linkageOption, pruneRules, pinRules, variableRules⟩
  · intro fits
    exact ⟨fits.linkageOption, fits.pruneRules, fits.pinRules, fits.variableRules⟩

/-- What is assembled is the recipe of its parts, and only if it passes its check. -/
theorem assemble_eq_ok_iff {pruneRules : PruneRules} {pinRules : List PinRule}
    {variableRules : VariableRules} {linkageOption : String} :
    assemble c pruneRules pinRules variableRules linkageOption = .ok recipe ↔
      recipe = ⟨c, pruneRules, pinRules, variableRules, linkageOption⟩ ∧
        recipe.check = .ok () := by
  unfold assemble
  rw [Outcome.check_then_eq_ok_iff]
  constructor
  · intro assembled
    rcases assembled with ⟨checked, ⟨⟩⟩
    exact ⟨rfl, checked⟩
  · intro assembled
    rcases assembled with ⟨rfl, checked⟩
    exact ⟨checked, rfl⟩

/-- Declaring options one after another, and assembling tables of rules over them, has made
the recipe. -/
def Valid (recipe : Recipe) : Prop :=
  ∃ (calls : List Declaration) (pruneRules : PruneRules) (pinRules : List PinRule)
    (variableRules : VariableRules) (linkageOption : String),
    assemble (.ofCalls calls) pruneRules pinRules variableRules linkageOption = .ok recipe

namespace Valid

theorem of_check {calls : List Declaration} (built : recipe.catalog = .ofCalls calls)
    (checked : recipe.check = .ok ()) : recipe.Valid := by
  refine ⟨calls, recipe.pruneRules, recipe.pinRules, recipe.variableRules, recipe.linkageOption, ?_⟩
  rw [← built]
  exact assemble_eq_ok_iff.2 ⟨rfl, checked⟩

theorem exists_calls (valid : recipe.Valid) :
    ∃ calls : List Declaration, recipe.catalog = .ofCalls calls := by
  obtain ⟨calls, pruneRules, pinRules, variableRules, linkageOption, assembled⟩ := valid
  obtain ⟨rfl, -⟩ := assemble_eq_ok_iff.1 assembled
  exact ⟨calls, rfl⟩

theorem wellFormed (valid : recipe.Valid) : recipe.catalog.WellFormed := by
  obtain ⟨calls, built⟩ := valid.exists_calls
  exact built ▸ Catalog.wellFormed_ofCalls calls

theorem defaultsFit (valid : recipe.Valid) : recipe.catalog.DefaultsFit := by
  obtain ⟨calls, built⟩ := valid.exists_calls
  exact built ▸ Catalog.defaultsFit_ofCalls calls

theorem parentsInFront (valid : recipe.Valid) : recipe.catalog.ParentsInFront := by
  obtain ⟨calls, built⟩ := valid.exists_calls
  exact built ▸ Catalog.parentsInFront_ofCalls calls

theorem fits (valid : recipe.Valid) : recipe.Fits := by
  have wf := valid.wellFormed
  obtain ⟨calls, pruneRules, pinRules, variableRules, linkageOption, assembled⟩ := valid
  exact (check_eq_ok_iff wf).1 (assemble_eq_ok_iff.1 assembled).2

/-- A resolution starts from values in the domains of the declared options. -/
theorem describes_start (valid : recipe.Valid) {request : Request} {start : Configuration}
    (accepted : recipe.catalog.start request = .ok start) : recipe.catalog.Describes start :=
  valid.wellFormed.describes_start valid.defaultsFit accepted

end Valid

end Recipe

end PackageConfig
