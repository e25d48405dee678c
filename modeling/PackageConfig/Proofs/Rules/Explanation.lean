import PackageConfig.Proofs.Options.Start
import PackageConfig.Proofs.Rules.Rerun

/-!
Why an option is in the state that a resolution leaves it in.

Three phases can remove an option, and only the first removal is recorded. Which rule on
options that is depends on what the rules before it left, so it is read off the
history of their run (`trials`, `optionRemoval?`); for the rules on the platform the platform
decides alone (`platformRemoval?`). `Justifies` says of each state what must have happened
for it to be a true account, and `configure_justified` that every state is one.
-/

namespace PackageConfig

variable {config start : Configuration} {p : Platform} {name : String}

/-! ## Removals by rules on options -/

namespace OptionRule

/-- Whether a rule, tried on a configuration, removes an option. -/
def removes (rule : OptionRule) (config : Configuration) (name : String) : Bool :=
  rule.condition.holds config && rule.action == .remove name

/-- The rules in their order, each with the configuration that it is tried on: the one that the
rules before it left. -/
def trials : List OptionRule → Configuration → List (OptionRule × Configuration)
  | [], _ => []
  | rule :: rest, config => (rule, config) :: trials rest (rule.run config)

theorem get?_run_of_removes {rule : OptionRule} (removed : rule.removes config name = true)
    (present : config.isPresent name = true) :
    (rule.run config).get? name = some (.absent (.optionRule rule.describe)) := by
  obtain ⟨holds, about⟩ := Bool.and_eq_true_iff.1 removed
  obtain ⟨value, held⟩ := Configuration.isPresent_iff.1 present
  unfold run
  rw [if_pos holds, eq_of_beq about, PruneAction.run, Configuration.get?_remove, if_pos rfl, held]
  rfl

theorem isPresent_run {rule : OptionRule} (spared : rule.removes config name = false)
    (present : config.isPresent name = true) : (rule.run config).isPresent name = true := by
  unfold run
  split
  next holds =>
    cases action : rule.action with
    | remove option =>
      have other : (PruneAction.remove option).option ≠ name := by
        intro same
        have removed : rule.removes config name = true := by
          rw [removes, holds, action, ← same]
          exact beq_self_eq_true (PruneAction.remove option)
        rw [spared] at removed
        cases removed
      rw [Configuration.isPresent_congr (PruneAction.get?_run_of_other other)]
      exact present
    | force target =>
      obtain ⟨value, held⟩ := Configuration.isPresent_iff.1 present
      rw [Configuration.isPresent_iff, PruneAction.run, Configuration.get?_force, held]
      split
      · exact ⟨target.value, rfl⟩
      · exact ⟨value, rfl⟩
  next => exact present

end OptionRule

namespace PruneRules

/-- The first rule on options that removes an option, in the history of a run. -/
def optionRemoval? (r : PruneRules) (config : Configuration) (name : String) : Option OptionRule :=
  ((OptionRule.trials r.optionRules config).find? fun trial =>
    trial.1.removes trial.2 name).map Prod.fst

/-- An option that is present before the rules on options is removed by the first rule that
removes it, if there is one, and is present after them if there is none. -/
theorem get?_runOptionRules (r : PruneRules) (present : config.isPresent name = true) :
    (∃ rule, r.optionRemoval? config name = some rule ∧
        (r.runOptionRules config).get? name = some (.absent (.optionRule rule.describe))) ∨
      r.optionRemoval? config name = none ∧ (r.runOptionRules config).isPresent name = true := by
  obtain ⟨optionRules, platformRules⟩ := r
  unfold optionRemoval? runOptionRules
  induction optionRules generalizing config with
  | nil => exact .inr ⟨rfl, present⟩
  | cons rule rest ih =>
    rw [OptionRule.trials, List.find?_cons, List.foldl_cons]
    cases removed : rule.removes config name with
    | true =>
      have absent := OptionRule.get?_run_of_removes removed present
      have later : (rule.run config).LeadsTo (rest.foldl (fun config rule => rule.run config) _) :=
        Configuration.leadsTo_foldl (fun s rule => rule.leadsTo_run s) rest _
      exact .inl ⟨rule, rfl, later.absent_kept name _ absent⟩
    | false => exact ih (OptionRule.isPresent_run removed present)

theorem get?_run_of_present (r : PruneRules) (p : Platform)
    (present : config.isPresent name = true) :
    (∃ rule, r.optionRemoval? config name = some rule ∧
        (r.run p config).get? name = some (.absent (.optionRule rule.describe))) ∨
      r.optionRemoval? config name = none ∧
        ((∃ rule, r.platformRemoval? p name = some rule ∧
            (r.run p config).get? name = some (.absent (.platformRule rule.describe))) ∨
          r.platformRemoval? p name = none ∧ (r.run p config).isPresent name = true) := by
  rw [Configuration.isPresent_iff, run, get?_runPlatformRules]
  rcases r.get?_runOptionRules present with ⟨rule, first, absent⟩ | ⟨spared, left⟩
  · rw [absent]
    exact .inl ⟨rule, first, rfl⟩
  · obtain ⟨value, held⟩ := Configuration.isPresent_iff.1 left
    refine .inr ⟨spared, ?_⟩
    rw [held, Option.map_some, platformState]
    cases removal : r.platformRemoval? p name with
    | some rule => exact .inl ⟨rule, rfl, rfl⟩
    | none => exact .inr ⟨rfl, _, rfl⟩

end PruneRules

/-! ## True accounts -/

namespace Recipe

variable {recipe : Recipe}

/-- A state of an option, in the configuration that a resolution from a start ends in, is a true
account of why the option is absent, or of why it is not. -/
def Justifies (recipe : Recipe) (p : Platform) (start config : Configuration) (name : String) :
    State → Prop
  | .absent (.optionRule text) =>
    ∃ rule, recipe.pruneRules.optionRemoval? start name = some rule ∧ text = rule.describe
  | .absent (.platformRule text) =>
    recipe.pruneRules.optionRemoval? start name = none ∧
      ∃ rule, recipe.pruneRules.platformRemoval? p name = some rule ∧ text = rule.describe
  | .absent (.parent above) =>
    recipe.pruneRules.optionRemoval? start name = none ∧
      recipe.pruneRules.platformRemoval? p name = none ∧
      recipe.catalog.parent? name = some above ∧
      ∃ state, config.get? above = some state ∧ state.isEnabled = false
  | .present _ =>
    recipe.pruneRules.optionRemoval? start name = none ∧
      recipe.pruneRules.platformRemoval? p name = none ∧
      ∀ above, recipe.catalog.parent? name = some above → config.isEnabled above = true

theorem leadsTo_settle (recipe : Recipe) (p : Platform) (start : Configuration) :
    start.LeadsTo (recipe.settle p start) :=
  (recipe.pruneRules.leadsTo_run p start).trans (recipe.catalog.leadsTo_close _)

theorem settle_isClosure (wf : recipe.catalog.WellFormed) (p : Platform) (start : Configuration) :
    recipe.catalog.IsClosure (recipe.pruneRules.run p start) (recipe.settle p start) :=
  wf.isClosure_close _

/-- From a configuration in which every declared option is present, the rules and the closing
leave every declared option in a state that is a true account. -/
theorem justifies_settle (wf : recipe.catalog.WellFormed) (front : recipe.catalog.ParentsInFront)
    (complete : ∀ name, recipe.catalog.declares name = true → start.isPresent name = true)
    (declared : recipe.catalog.declares name = true) :
    ∃ state, (recipe.settle p start).get? name = some state ∧
      recipe.Justifies p start (recipe.settle p start) name state := by
  have closure := recipe.settle_isClosure wf p start
  rcases recipe.pruneRules.get?_run_of_present p (complete name declared) with
    ⟨rule, first, absent⟩ | ⟨spared, ⟨rule, first, absent⟩ | ⟨unmatched, left⟩⟩
  · exact ⟨_, closure.cause_kept name _ absent, rule, first, rfl⟩
  · exact ⟨_, closure.cause_kept name _ absent, spared, rule, first, rfl⟩
  cases present : (recipe.settle p start).isPresent name with
  | true =>
    obtain ⟨value, held⟩ := Configuration.isPresent_iff.1 present
    refine ⟨.present value, held, spared, unmatched, fun above stated => ?_⟩
    exact closure.ancestors_enabled name above present (.of_parent stated)
  | false =>
    obtain ⟨above, stated, absent⟩ := closure.removed_for_parent name left present
    have disabled := closure.parent_disabled left present stated
    -- The parent is declared, so it was present at the start and is known still.
    obtain ⟨before, found⟩ := Configuration.isPresent_iff.1 (complete above (front.declares stated))
    have known := (recipe.leadsTo_settle p start).isSome_get? above
    rw [found] at known
    obtain ⟨state, held⟩ := Option.isSome_iff_exists.1 known
    refine ⟨_, absent, spared, unmatched, stated, state, held, ?_⟩
    unfold Configuration.isEnabled at disabled
    rw [held] at disabled
    exact disabled

/-- Every request that the declarations accept is resolved on every platform, and the state that
each declared option is left in is a true account: a recorded rule is the first that removed the
option, a recorded parent is its own and not enabled, and an option that is present was removed
by no rule and has an enabled parent, if it has one. -/
theorem configure_justified {calls : List Declaration} {request : Request}
    (declared : recipe.catalog = .ofCalls calls)
    (accepted : recipe.catalog.start request = .ok start) (p : Platform) :
    ∃ config, recipe.configure p request = .ok config ∧
      ∀ name, recipe.catalog.declares name = true →
        ∃ state, config.get? name = some state ∧
          recipe.Justifies p start config name state := by
  have wf : recipe.catalog.WellFormed := declared ▸ Catalog.wellFormed_ofCalls calls
  have front : recipe.catalog.ParentsInFront := declared ▸ Catalog.parentsInFront_ofCalls calls
  refine ⟨recipe.settle p start, configure_eq_ok_iff.2 ⟨start, accepted, rfl⟩, ?_⟩
  intro name known
  exact justifies_settle wf front (fun _ known => Catalog.isPresent_start wf accepted known) known

/-- A recipe with an option that a shared build removes, and one that Linux removes from above
another. -/
def layered : Recipe where
  catalog := .ofCalls [.flag "shared" false, .flag "fPIC" true, .flag "gui" true,
    .flag "opengl" true (some "gui")]
  pruneRules := ⟨[⟨⟨"shared", .flag true⟩, .remove "fPIC"⟩],
    [⟨{ os := [.linux] }, .remove "gui"⟩]⟩
  pinRules := []
  variableRules := ⟨"", []⟩
  linkageOption := "shared"

/-- A configuration of that recipe, in a shared build. -/
def layeredStates (fPIC gui opengl : State) : Configuration :=
  ⟨.ofList [("fPIC", fPIC), ("gui", gui), ("opengl", opengl), ("shared", .present (.flag true))]⟩

theorem configure_justified_layered :
    let start := layeredStates (.present (.flag true)) (.present (.flag true))
      (.present (.flag true))
    let config := layeredStates (.absent (.optionRule "remove fPIC when shared=true"))
      (.absent (.platformRule "remove gui when os=linux")) (.absent (.parent "gui"))
    let p : Platform := ⟨.linux, .gcc, .x86_64⟩
    layered.configure p (.ofList [("shared", .flag true)]) = .ok config ∧
      layered.Justifies p start config "fPIC"
        (.absent (.optionRule "remove fPIC when shared=true")) ∧
      layered.Justifies p start config "gui"
        (.absent (.platformRule "remove gui when os=linux")) ∧
      layered.Justifies p start config "opengl" (.absent (.parent "gui")) ∧
      layered.Justifies p start config "shared" (.present (.flag true)) := by
  intro start config p
  have settled : layered.settle p start = config := by
    have pruned : layered.pruneRules.run p start = layeredStates
        (.absent (.optionRule "remove fPIC when shared=true"))
        (.absent (.platformRule "remove gui when os=linux")) (.present (.flag true)) := by decide
    rw [settle, pruned, Catalog.close_of_orphans_ne_nil (by decide)]
    exact Catalog.close_of_orphans_nil (by decide)
  have declared : layered.catalog = .ofCalls [.flag "shared" false, .flag "fPIC" true,
    .flag "gui" true, .flag "opengl" true (some "gui")] := rfl
  have accepted : layered.catalog.start (.ofList [("shared", .flag true)]) = .ok start := rfl
  have resolved := configure_eq_ok_iff.2 ⟨start, accepted, settled⟩
  obtain ⟨found, reached, each⟩ := configure_justified declared accepted p
  have same : found = config := Except.ok.inj (reached.symm.trans resolved)
  rw [same] at each
  have account : ∀ name state, layered.catalog.declares name = true →
      config.get? name = some state → layered.Justifies p start config name state := by
    intro name state known held
    obtain ⟨other, listed, justified⟩ := each name known
    rw [held] at listed
    cases listed
    exact justified
  exact ⟨resolved, account "fPIC" _ (by decide) rfl, account "gui" _ (by decide) rfl,
    account "opengl" _ (by decide) rfl, account "shared" _ (by decide) rfl⟩

end Recipe

end PackageConfig
