import PackageConfig.Proofs.Recipe.Phases

/-!
Removals that the final configuration honours.

A rule on options is tried once, on what the rules before it left, while its condition can be
read again in the configuration that a resolution ends in. In between the other rules, the
rules on the platform and the closing have run. Where no rule forces the option that the
condition is about (`Unforced`), none of them can have made the condition true: a value that is
there in the end was there when the rule had its turn (`absent_of_holds`). So the rule fired, and
what it removed stays removed.
-/

namespace PackageConfig

namespace PruneRules

variable {r : PruneRules} {p : Platform} {start config : Configuration} {rule : OptionRule}
  {option : String}

/-- No rule of either table forces an option. -/
structure Unforced (r : PruneRules) (option : String) : Prop where
  optionRules : ∀ rule ∈ r.optionRules, ∀ target, rule.action = .force target →
    target.option ≠ option
  platformRules : ∀ rule ∈ r.platformRules, ∀ target, rule.action = .force target →
    target.option ≠ option

theorem Unforced.notMem_optionForces {target : Assignment} (unforced : r.Unforced target.option) :
    target ∉ r.optionForces := by
  intro forced
  obtain ⟨rule, mem, forces⟩ := List.mem_filterMap.1 forced
  exact unforced.optionRules rule mem target (PruneAction.forced?_eq_some_iff.1 forces) rfl

theorem Unforced.notMem_platformForces {target : Assignment}
    (unforced : r.Unforced target.option) (p : Platform) : target ∉ r.platformForces p := by
  intro forced
  obtain ⟨rule, mem, forces⟩ := List.mem_filterMap.1 forced
  exact unforced.platformRules rule (List.mem_filter.1 mem).1 target
    (PruneAction.forced?_eq_some_iff.1 forces) rfl

/-- Every rule on options has its turn on some configuration that the rules before it have led
to, and the rules behind it go on from what it makes of that. -/
theorem exists_turn (mem : rule ∈ r.optionRules) (p : Platform) (start : Configuration) :
    ∃ before, start.LeadsTo before ∧ r.Yields p (rule.run before) (r.runOptionRules start) := by
  obtain ⟨front, back, split⟩ := List.append_of_mem mem
  have behind : ∀ later ∈ back, later ∈ r.optionRules := by
    intro later inBack
    rw [split]
    exact List.mem_append_right front (List.mem_cons_of_mem rule inBack)
  refine ⟨front.foldl (fun config rule => rule.run config) start, ?_, ?_⟩
  · exact Configuration.leadsTo_foldl (fun s rule => rule.leadsTo_run s) front start
  · rw [runOptionRules, split, List.foldl_append, List.foldl_cons]
    exact yields_optionRules behind p _

/-- A condition that holds in the end, on an option that no rule forces, held when its rule had
its turn, so that the option which the rule removes is absent in the end. -/
theorem absent_of_holds (mem : rule ∈ r.optionRules) (unforced : r.Unforced rule.condition.option)
    (removes : rule.action = .remove option) (known : ∃ state, start.get? option = some state)
    (run : r.Yields p (r.runOptionRules start) config)
    (holds : rule.condition.holds config = true) :
    ∃ cause, config.get? option = some (.absent cause) := by
  obtain ⟨before, reached, later⟩ := exists_turn mem p start
  have later := later.trans run
  have fired : rule.condition.holds before = true := by
    have turn := (yields_optionRule mem p before).trans later
    unfold Assignment.holds at holds ⊢
    rw [beq_iff_eq] at holds ⊢
    exact turn.value_before unforced.notMem_optionForces (unforced.notMem_platformForces p) holds
  obtain ⟨state, held⟩ := known
  have listed := reached.isSome_get? option
  rw [held] at listed
  obtain ⟨current, found⟩ := Option.isSome_iff_exists.1 listed
  obtain ⟨cause, gone⟩ := State.exists_remove_eq_absent (.optionRule rule.describe) current
  refine ⟨cause, later.leadsTo.absent_kept option cause ?_⟩
  rw [OptionRule.run, if_pos fired, removes, PruneAction.run, Configuration.get?_remove,
    if_pos rfl, found, Option.map_some, gone]

end PruneRules

namespace Recipe

variable {recipe : Recipe} {start : Configuration} {request : Request}

/-- Where no rule forces an option that a rule on options waits for, the removals by rules on
options are honoured on every platform: if the condition of such a rule holds in the
configuration that an accepted request is resolved to, the option that it removes is absent
there. -/
theorem configure_honours_removals (valid : recipe.Valid)
    (unforced : ∀ rule ∈ recipe.pruneRules.optionRules,
      recipe.pruneRules.Unforced rule.condition.option)
    (accepted : recipe.catalog.start request = .ok start) (p : Platform) :
    ∃ config, recipe.configure p request = .ok config ∧
      ∀ rule ∈ recipe.pruneRules.optionRules, ∀ option, rule.action = .remove option →
        rule.condition.holds config = true →
          ∃ cause, config.get? option = some (.absent cause) := by
  refine ⟨recipe.settle p start, configure_eq_ok_iff.2 ⟨start, accepted, rfl⟩, ?_⟩
  intro rule mem option removes holds
  have declared : recipe.catalog.declares option = true := by
    have fits := (valid.fits.pruneRules.optionRules rule mem).action
    rw [removes] at fits
    exact fits
  have known := (valid.describes_start accepted).exists_get? declared
  exact PruneRules.absent_of_holds mem (unforced rule mem) removes known
    (recipe.yields_settle p start) holds

/-- A platform may force other options: `lto`, which no rule waits for, does not keep a shared
build from being without `fPIC`. -/
theorem configure_honours_removals_forcing_lto :
    let recipe := forcing ⟨"lto", .flag false⟩
    let request : Request := .ofList [("shared", .flag true)]
    recipe.Valid ∧
      (∀ rule ∈ recipe.pruneRules.optionRules,
        recipe.pruneRules.Unforced rule.condition.option) ∧
      recipe.catalog.start request = .ok (forcingStates (.present (.flag true)) true true) ∧
      ∃ config, recipe.configure ⟨.linux, .gcc, .x86_64⟩ request = .ok config ∧
        config.get? "shared" = some (.present (.flag true)) ∧
        ∃ cause, config.get? "fPIC" = some (.absent cause) := by
  intro recipe request
  have valid : recipe.Valid := .of_check rfl rfl
  have unforced : ∀ rule ∈ recipe.pruneRules.optionRules,
      recipe.pruneRules.Unforced rule.condition.option := by
    intro rule mem
    cases List.mem_singleton.1 mem
    constructor
    · intro other mem target forces
      cases List.mem_singleton.1 mem
      cases forces
    · intro other mem target forces
      cases List.mem_singleton.1 mem
      cases forces
      decide
  have accepted : recipe.catalog.start request =
      .ok (forcingStates (.present (.flag true)) true true) := rfl
  obtain ⟨config, resolved, honours⟩ :=
    configure_honours_removals valid unforced accepted ⟨.linux, .gcc, .x86_64⟩
  have settled : config =
      forcingStates (.absent (.optionRule "remove fPIC when shared=true")) false true := by
    obtain ⟨start, started, same⟩ := configure_eq_ok_iff.1 resolved
    cases accepted.symm.trans started
    rw [← same]
    exact settle_forcing (by decide) (by decide)
  have shared : config.get? "shared" = some (.present (.flag true)) := by
    rw [settled]
    rfl
  refine ⟨valid, unforced, accepted, config, resolved, shared, ?_⟩
  refine honours _ List.mem_cons_self "fPIC" rfl ?_
  rw [Assignment.holds, shared]
  rfl

end Recipe

end PackageConfig
