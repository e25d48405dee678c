import PackageConfig.Rules.Variable
import PackageConfig.Proofs.Options.Configuration
import PackageConfig.Proofs.Outcome

/-!
What the rules on variables make of a configuration that knows their options.

No source can fail then: it has the value `reading` (`value_eq_ok`), and the table is the map
from the names of the rules to the readings of their sources (`table_eq_ok`). Names do not
repeat in a table that was checked, so that its order plays no part (`readings_of_perm`).
-/

namespace PackageConfig

variable {config : Configuration} {linkage : Linkage}

namespace Trigger

/-- The option that a trigger reads, if it reads one. -/
def option? : Trigger → Option String
  | .option name => some name
  | .sharedBuild => none

/-- Whether a trigger holds. -/
def holds (config : Configuration) (linkage : Linkage) : Trigger → Bool
  | .option name => config.isEnabled name
  | .sharedBuild => linkage.isShared

theorem anyHolds_eq_ok {triggers : List Trigger}
    (known : ∀ option ∈ triggers.filterMap option?, ∃ state, config.get? option = some state) :
    anyHolds config linkage triggers = .ok (triggers.any (holds config linkage)) := by
  induction triggers with
  | nil => rfl
  | cons trigger rest ih =>
    cases trigger with
    | option name =>
      obtain ⟨here, later⟩ := List.forall_mem_cons.1 known
      rw [anyHolds, Configuration.enabled_eq_ok here, List.any_cons, holds]
      cases config.isEnabled name with
      | true => rfl
      | false => exact ih later
    | sharedBuild =>
      rw [anyHolds, List.any_cons, holds]
      cases linkage with
      | static => exact ih known
      | shared => rfl

end Trigger

namespace VariableSource

variable {source : VariableSource}

/-- The option that feeds a variable by itself. -/
def direct? : VariableSource → Option String
  | .option name => some name
  | _ => none

/-- The options that a source reads. -/
def options : VariableSource → List String
  | .option name => [name]
  | .constant _ => []
  | .anyOf triggers => triggers.filterMap Trigger.option?

/-- The value of a source: that of its option, or `false` where the option is absent; its
constant; or whether some trigger holds. -/
def reading (config : Configuration) (linkage : Linkage) : VariableSource → Value
  | .option name => ((config.get? name).bind State.value?).getD (.flag false)
  | .constant value => value
  | .anyOf triggers => .flag (triggers.any (Trigger.holds config linkage))

theorem value_eq_ok (known : ∀ option ∈ source.options, ∃ state, config.get? option = some state) :
    source.value config linkage = .ok (source.reading config linkage) := by
  cases source with
  | option name =>
    rw [value, Configuration.value_eq_ok (known name List.mem_cons_self)]
    rfl
  | constant value => rfl
  | anyOf triggers =>
    rw [value, Trigger.anyHolds_eq_ok known]
    rfl

end VariableSource

namespace VariableRules

variable {v : VariableRules} {rules others : List VariableRule}

/-- One reading for each rule, under the name of the rule. -/
def readings (rules : List VariableRule) (config : Configuration) (linkage : Linkage) :
    Variables :=
  .ofList (rules.map fun rule => (rule.name, rule.source.reading config linkage))

theorem addEach_eq_ok {table : Variables}
    (known : ∀ rule ∈ rules, ∀ option ∈ rule.source.options,
      ∃ state, config.get? option = some state) :
    addEach config linkage rules table =
      .ok (rules.foldl
        (fun table rule => table.insert rule.name (rule.source.reading config linkage)) table) := by
  induction rules generalizing table with
  | nil => rfl
  | cons rule rest ih =>
    obtain ⟨here, later⟩ := List.forall_mem_cons.1 known
    rw [addEach, VariableSource.value_eq_ok here]
    exact ih later

theorem table_eq_ok
    (known : ∀ rule ∈ v.rules, ∀ option ∈ rule.source.options,
      ∃ state, config.get? option = some state) :
    v.table config linkage = .ok (readings v.rules config linkage) := by
  rw [table, addEach_eq_ok known, readings, NameMap.ofList, List.foldl_map]

theorem map_fst_readings (rules : List VariableRule) (config : Configuration) (linkage : Linkage) :
    (rules.map fun rule => (rule.name, rule.source.reading config linkage)).map Prod.fst =
      rules.map VariableRule.name :=
  List.map_map

theorem isSome_get?_addEach {table out : Variables}
    (made : addEach config linkage rules table = .ok out) {name : String} :
    (out.get? name).isSome ↔
      name ∈ rules.map VariableRule.name ∨ (table.get? name).isSome := by
  induction rules generalizing table with
  | nil =>
    cases made
    simp
  | cons rule rest ih =>
    obtain ⟨value, -, made⟩ := Outcome.bind_eq_ok_iff.1 made
    rw [ih made, NameMap.get?_insert, List.map_cons, List.mem_cons]
    split
    next same => simp [same]
    next other => simp [Ne.symm other]

/-- A table that was made has the names of the rules, whatever the configuration. -/
theorem isSome_get?_table {out : Variables} (made : v.table config linkage = .ok out)
    {name : String} : (out.get? name).isSome ↔ name ∈ v.rules.map VariableRule.name := by
  rw [isSome_get?_addEach made]
  simp

/-- Under the name of a rule stands the reading of its source. -/
theorem get?_readings (nodup : (rules.map VariableRule.name).Nodup) {rule : VariableRule}
    (mem : rule ∈ rules) (config : Configuration) (linkage : Linkage) :
    (readings rules config linkage).get? rule.name = some (rule.source.reading config linkage) := by
  rw [← map_fst_readings rules config linkage] at nodup
  exact (NameMap.get?_ofList_eq_some_iff nodup).2 (List.mem_map_of_mem mem)

/-- The table has one entry for each rule, and no other. -/
theorem names_readings_perm (nodup : (rules.map VariableRule.name).Nodup) (config : Configuration)
    (linkage : Linkage) :
    (readings rules config linkage).names.Perm (rules.map VariableRule.name) := by
  rw [← map_fst_readings rules config linkage] at nodup ⊢
  exact NameMap.names_ofList_perm nodup

/-- In which order rules with distinct names stand plays no part for the table. -/
theorem readings_of_perm (nodup : (rules.map VariableRule.name).Nodup) (perm : rules.Perm others)
    (config : Configuration) (linkage : Linkage) :
    readings rules config linkage = readings others config linkage := by
  rw [← map_fst_readings rules config linkage] at nodup
  exact NameMap.ofList_of_perm nodup (perm.map _)

end VariableRules

end PackageConfig
