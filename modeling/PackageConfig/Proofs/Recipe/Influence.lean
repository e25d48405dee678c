import PackageConfig.Proofs.Recipe.Totality
import PackageConfig.Proofs.Rules.Explanation

/-!
What a requested value can influence.

Two requests that differ in one option start two runs of the same rules. As long as no rule on
options waits for that option, the runs go side by side: they differ at most in the value
with which it is present (`AlikeBut`), rule by rule. What the closing makes of an option
depends on its ancestors only, so the difference stays with the option and what is declared
below it (`configure_eq_of_not_below`). Where the platform removes the option, the difference is
gone before the closing starts (`run_eq_of_excluded`).
-/

namespace PackageConfig

variable {s t : Configuration} {option name : String} {p : Platform}

/-! ## Two runs of the rules side by side -/

namespace PruneAction

variable {action : PruneAction} {cause : Cause}

theorem get?_run_of_eq (same : s.get? name = t.get? name) :
    (action.run cause s).get? name = (action.run cause t).get? name := by
  rw [get?_run, get?_run, same]

theorem get?_run_of_present (about : action.option = name) (left : s.isPresent name = true)
    (right : t.isPresent name = true) :
    (action.run cause s).get? name = (action.run cause t).get? name := by
  obtain ⟨before, held⟩ := Configuration.isPresent_iff.1 left
  obtain ⟨otherBefore, otherHeld⟩ := Configuration.isPresent_iff.1 right
  rw [get?_run, get?_run, if_pos about, if_pos about, held, otherHeld, Option.map_some,
    Option.map_some, action.effect_present cause before otherBefore]

end PruneAction

namespace Configuration

/-- Two configurations that differ at most in the value with which one option is present. -/
def AlikeBut (option : String) (s t : Configuration) : Prop :=
  ∀ name, s.get? name = t.get? name ∨
    name = option ∧ s.isPresent name = true ∧ t.isPresent name = true

namespace AlikeBut

theorem get?_eq (alike : AlikeBut option s t) (other : name ≠ option) :
    s.get? name = t.get? name :=
  (alike name).resolve_right fun different => other different.1

theorem runAction (alike : AlikeBut option s t) (action : PruneAction) (cause : Cause) :
    AlikeBut option (action.run cause s) (action.run cause t) := by
  intro name
  rcases alike name with same | ⟨here, left, right⟩
  · exact .inl (PruneAction.get?_run_of_eq same)
  · by_cases about : action.option = name
    · exact .inl (PruneAction.get?_run_of_present about left right)
    · refine .inr ⟨here, ?_, ?_⟩
      · rw [isPresent_congr (PruneAction.get?_run_of_other about)]
        exact left
      · rw [isPresent_congr (PruneAction.get?_run_of_other about)]
        exact right

/-- A rule that waits for another option fires in both runs or in neither. -/
theorem runOptionRule (alike : AlikeBut option s t) {rule : OptionRule}
    (unread : rule.condition.option ≠ option) : AlikeBut option (rule.run s) (rule.run t) := by
  have fires : rule.condition.holds s = rule.condition.holds t := by
    unfold Assignment.holds
    rw [alike.get?_eq unread]
  unfold OptionRule.run
  rw [fires]
  split
  · exact alike.runAction rule.action _
  · exact alike

theorem runOptionRules (alike : AlikeBut option s t) {rules : List OptionRule}
    (unread : ∀ rule ∈ rules, rule.condition.option ≠ option) :
    AlikeBut option (rules.foldl (fun config rule => rule.run config) s)
      (rules.foldl (fun config rule => rule.run config) t) := by
  induction rules generalizing s t with
  | nil => exact alike
  | cons rule rest ih =>
    have first := alike.runOptionRule (unread rule List.mem_cons_self)
    exact ih first fun later mem => unread later (List.mem_cons_of_mem _ mem)

end AlikeBut

end Configuration

namespace PruneRules

variable {r : PruneRules}

/-- The rules on the platform do not look at values, so they keep the two runs alike. -/
theorem get?_runPlatformRules_of_eq (same : s.get? name = t.get? name) :
    (r.runPlatformRules p s).get? name = (r.runPlatformRules p t).get? name := by
  rw [get?_runPlatformRules, get?_runPlatformRules, same]

theorem get?_run_of_alikeBut (alike : Configuration.AlikeBut option s t)
    (unread : ∀ rule ∈ r.optionRules, rule.condition.option ≠ option) (other : name ≠ option) :
    (r.run p s).get? name = (r.run p t).get? name :=
  get?_runPlatformRules_of_eq ((alike.runOptionRules unread).get?_eq other)

/-- Where a rule on the platform removes the option, the two runs meet: either a rule on
options had removed it in both, or this one does now. -/
theorem run_eq_of_excluded (alike : Configuration.AlikeBut option s t)
    (unread : ∀ rule ∈ r.optionRules, rule.condition.option ≠ option)
    (excluded : r.platformRemoval? p option ≠ none) : r.run p s = r.run p t := by
  refine Configuration.ext_get? fun name => ?_
  rcases alike.runOptionRules unread name with same | ⟨here, left, right⟩
  · exact get?_runPlatformRules_of_eq same
  · subst here
    obtain ⟨rule, removal⟩ := Option.ne_none_iff_exists'.1 excluded
    obtain ⟨before, held⟩ := Configuration.isPresent_iff.1 left
    obtain ⟨otherBefore, otherHeld⟩ := Configuration.isPresent_iff.1 right
    change (r.runPlatformRules p (r.runOptionRules s)).get? name =
      (r.runPlatformRules p (r.runOptionRules t)).get? name
    rw [get?_runPlatformRules, get?_runPlatformRules, runOptionRules, runOptionRules, held,
      otherHeld, Option.map_some, Option.map_some, platformState, platformState, removal]

end PruneRules

/-! ## Two requests -/

/-- Two accepted requests that differ in one declared option start from configurations that
differ at most in its value. -/
theorem Catalog.alikeBut_start {c : Catalog} (wf : c.WellFormed)
    (declared : c.declares option = true) {request other : Request}
    (agree : ∀ name, name ≠ option → request.get? name = other.get? name)
    (accepted : c.start request = .ok s) (otherAccepted : c.start other = .ok t) :
    Configuration.AlikeBut option s t := by
  intro name
  by_cases here : name = option
  · subst here
    have left := isPresent_start wf accepted declared
    have right := isPresent_start wf otherAccepted declared
    exact .inr ⟨rfl, left, right⟩
  · have left := get?_start accepted name
    have right := get?_start otherAccepted name
    rw [agree name here] at left
    cases asked : other.get? name with
    | none =>
      rw [asked] at left right
      exact .inl (left.trans right.symm)
    | some raw =>
      rw [asked] at left right
      obtain ⟨value, allowed, held⟩ := left
      obtain ⟨otherValue, otherAllowed, otherHeld⟩ := right
      cases allowed.symm.trans otherAllowed
      exact .inl (held.trans otherHeld.symm)

namespace Recipe

variable {recipe : Recipe} {request other : Request}

/-- Two accepted requests that differ in one option, for which no rule on options waits, leave
every option in the same state, except that option and those declared below it. -/
theorem configure_eq_of_not_below (valid : recipe.Valid)
    (declared : recipe.catalog.declares option = true)
    (unread : ∀ rule ∈ recipe.pruneRules.optionRules, rule.condition.option ≠ option)
    (agree : ∀ name, name ≠ option → request.get? name = other.get? name)
    (accepted : recipe.catalog.start request = .ok s)
    (otherAccepted : recipe.catalog.start other = .ok t) (p : Platform) :
    ∃ config otherConfig, recipe.configure p request = .ok config ∧
      recipe.configure p other = .ok otherConfig ∧
      ∀ name, name ≠ option → ¬ recipe.catalog.HasAncestor name option →
        config.get? name = otherConfig.get? name := by
  have wf := valid.wellFormed
  have alike := Catalog.alikeBut_start wf declared agree accepted otherAccepted
  have pruned : ∀ name, name ≠ option →
      (recipe.pruneRules.run p s).get? name = (recipe.pruneRules.run p t).get? name :=
    fun name different => PruneRules.get?_run_of_alikeBut alike unread different
  refine ⟨recipe.settle p s, recipe.settle p t, configure_eq_ok_iff.2 ⟨s, accepted, rfl⟩,
    configure_eq_ok_iff.2 ⟨t, otherAccepted, rfl⟩, fun name different apart => ?_⟩
  refine (recipe.settle_isClosure wf p s).get?_of_agree (recipe.settle_isClosure wf p t)
    (pruned name different) fun ancestor above => pruned ancestor ?_
  intro same
  exact apart (same ▸ above)

theorem agree_but_gui (name : String) (different : name ≠ "gui") :
    (NameMap.ofList [("shared", Value.flag true)]).get? name =
      (NameMap.ofList [("shared", .flag true), ("gui", .flag false)]).get? name := by
  simp [NameMap.get?_ofList, NameMap.find, different.symm]

theorem start_layered : layered.catalog.start (.ofList [("shared", .flag true)]) =
    .ok (layeredStates (.present (.flag true)) (.present (.flag true))
      (.present (.flag true))) := rfl

theorem start_layered_without_gui :
    layered.catalog.start (.ofList [("shared", .flag true), ("gui", .flag false)]) =
      .ok (layeredStates (.present (.flag true)) (.present (.flag false))
        (.present (.flag true))) := rfl

/-- Whether the user asks for a component that Windows does not exclude plays no part for the
options beside it. -/
theorem configure_eq_of_not_below_layered :
    let request : Request := .ofList [("shared", .flag true)]
    let other : Request := .ofList [("shared", .flag true), ("gui", .flag false)]
    let p : Platform := ⟨.windows, .msvc, .x86_64⟩
    layered.Valid ∧ layered.catalog.declares "gui" = true ∧
      (∀ rule ∈ layered.pruneRules.optionRules, rule.condition.option ≠ "gui") ∧
      (∀ name, name ≠ "gui" → request.get? name = other.get? name) ∧
      ∃ config otherConfig, layered.configure p request = .ok config ∧
        layered.configure p other = .ok otherConfig ∧
        config.get? "fPIC" = otherConfig.get? "fPIC" := by
  intro request other p
  have valid : layered.Valid := .of_check rfl rfl
  obtain ⟨config, otherConfig, reached, otherReached, same⟩ :=
    configure_eq_of_not_below valid rfl (by decide) agree_but_gui start_layered
      start_layered_without_gui p
  exact ⟨valid, rfl, by decide, agree_but_gui, config, otherConfig, reached, otherReached,
    same "fPIC" (by decide) (Catalog.not_hasAncestor rfl)⟩

/-- Two accepted requests that differ in one option, which the platform removes and for which no
rule on options waits, are resolved alike: to equal resolutions, or to the same conflict of
two pins. -/
theorem resolve_eq_of_excluded (valid : recipe.Valid)
    (excluded : ∃ rule ∈ recipe.pruneRules.platformRules,
      rule.condition.holds p = true ∧ rule.action = .remove option)
    (unread : ∀ rule ∈ recipe.pruneRules.optionRules, rule.condition.option ≠ option)
    (agree : ∀ name, name ≠ option → request.get? name = other.get? name)
    (accepted : recipe.catalog.start request = .ok s)
    (otherAccepted : recipe.catalog.start other = .ok t) :
    recipe.resolve p request = recipe.resolve p other ∧
      ((∃ r, recipe.resolve p request = .ok r) ∨
        ∃ first second, recipe.resolve p request = .error (.pinConflict first second)) := by
  obtain ⟨rule, mem, holds, removes⟩ := excluded
  have declared : recipe.catalog.declares option = true := by
    have fits := valid.fits.pruneRules.platformActions rule mem
    rw [removes] at fits
    exact fits
  have removal : recipe.pruneRules.platformRemoval? p option ≠ none := by
    intro none
    refine List.find?_eq_none.1 none rule mem ?_
    simp [holds, removes]
  have alike := Catalog.alikeBut_start valid.wellFormed declared agree accepted otherAccepted
  have settled : recipe.settle p s = recipe.settle p t := by
    unfold settle
    rw [PruneRules.run_eq_of_excluded alike unread removal]
  refine ⟨?_, valid.resolved_or_conflict accepted p⟩
  rw [valid.resolve_of_accepted accepted, valid.resolve_of_accepted otherAccepted, settled]

/-- On Linux, which excludes `gui`, asking for it or against it makes no difference. -/
theorem resolve_eq_of_excluded_layered :
    let request : Request := .ofList [("shared", .flag true)]
    let other : Request := .ofList [("shared", .flag true), ("gui", .flag false)]
    let p : Platform := ⟨.linux, .gcc, .x86_64⟩
    layeredOutputs.Valid ∧
      (∃ rule ∈ layeredOutputs.pruneRules.platformRules,
        rule.condition.holds p = true ∧ rule.action = .remove "gui") ∧
      (∀ rule ∈ layeredOutputs.pruneRules.optionRules, rule.condition.option ≠ "gui") ∧
      (∀ name, name ≠ "gui" → request.get? name = other.get? name) ∧
      layeredOutputs.resolve p request = layeredOutputs.resolve p other ∧
      ((∃ r, layeredOutputs.resolve p request = .ok r) ∨
        ∃ first second, layeredOutputs.resolve p request = .error (.pinConflict first second)) := by
  intro request other p
  have excluded : ∃ rule ∈ layeredOutputs.pruneRules.platformRules,
      rule.condition.holds p = true ∧ rule.action = .remove "gui" := by decide
  have unread : ∀ rule ∈ layeredOutputs.pruneRules.optionRules, rule.condition.option ≠ "gui" := by
    decide
  exact ⟨layeredOutputs_valid, excluded, unread, agree_but_gui,
    resolve_eq_of_excluded layeredOutputs_valid excluded unread agree_but_gui start_layered
      start_layered_without_gui⟩

end Recipe

end PackageConfig
