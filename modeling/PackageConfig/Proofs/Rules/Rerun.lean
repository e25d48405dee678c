import PackageConfig.Recipe
import PackageConfig.Proofs.Options.Closure
import PackageConfig.Proofs.Rules.Prune

/-!
Running the pruning rules and the closing again on a configuration that they made.

The rules on options are tried before the rules on the platform force their values, and
the second run finds those values in place. So the configuration need not stay as
it is (`settle_not_idempotent`). It does exactly when running the rules on options again
removes nothing and changes only values that the platform forces (`settle_again_iff`),
and in particular when no rule forces a value that triggers a rule on options, and
rules on options that force one option agree.
-/

namespace PackageConfig

namespace PruneRules

variable {r : PruneRules} {p : Platform} {config first again : Configuration}

/-! ## Configurations at rest -/

/-- Running the rules on options on a configuration removes nothing, and changes the
value of an option only where a rule matching the platform forces it. -/
def Rests (r : PruneRules) (p : Platform) (config : Configuration) : Prop :=
  ∀ name value, config.get? name = some (.present value) →
    ∃ again, (r.runOptionRules config).get? name = some (.present again) ∧
      (again = value ∨ ∃ target ∈ r.platformForces p, target.option = name)

/-- Where the platform leaves a value as it is, it makes another value into it only by
forcing it. -/
theorem platformState_eq_present_iff {name : String} {value other : Value}
    (kept : r.platformState p name (.present value) = .present value) :
    r.platformState p name (.present other) = .present value ↔
      other = value ∨ ∃ target ∈ r.platformForces p, target.option = name := by
  rw [platformState] at kept ⊢
  cases removal : r.platformRemoval? p name with
  | some rule =>
    rw [removal] at kept
    cases kept
  | none =>
    rw [removal] at kept
    cases last : r.platformValue? p name with
    | none =>
      have unforced := platformValue?_eq_none_iff.1 last
      constructor
      · intro same
        cases same
        exact .inl rfl
      · intro cause
        rcases cause with rfl | ⟨target, mem, about⟩
        · rfl
        · exact absurd about (unforced target mem)
    | some forced =>
      rw [last] at kept
      have same : forced = value := State.present.inj kept
      subst same
      exact iff_of_true rfl (.inr ⟨_, mem_platformForces_of_platformValue? last, rfl⟩)

/-- Both tables leave a configuration that the platform leaves as it is alone exactly
when it rests. -/
theorem run_eq_self_iff
    (kept : ∀ name value, config.get? name = some (.present value) →
      r.platformState p name (.present value) = .present value) :
    r.run p config = config ↔ r.Rests p config := by
  constructor
  · intro same name value present
    rw [← same, run, get?_runPlatformRules] at present
    obtain ⟨state, held, given⟩ := Option.map_eq_some_iff.1 present
    cases state with
    | absent cause => cases given
    | present again =>
      refine ⟨again, held, (platformState_eq_present_iff (kept name value ?_)).1 given⟩
      rw [← same, run, get?_runPlatformRules]
      exact present
  · intro rests
    refine Configuration.ext_get? fun name => ?_
    by_cases present : ∃ value, config.get? name = some (.present value)
    · obtain ⟨value, held⟩ := present
      obtain ⟨again, found, forced⟩ := rests name value held
      rw [run, get?_runPlatformRules, found, held]
      exact congrArg some ((platformState_eq_present_iff (kept name value held)).2 forced)
    · exact (r.leadsTo_run p config).get?_of_gone fun value held => present ⟨value, held⟩

/-! ## Rules that do not meddle with each other -/

/-- No rule forces a value that a rule on options waits for, and two rules on options
force different values on one option only where the platform has the last word on it. -/
structure Untangled (r : PruneRules) (p : Platform) : Prop where
  untriggered : ∀ rule ∈ r.optionRules,
    rule.condition ∉ r.optionForces ∧ rule.condition ∉ r.platformForces p
  agreeing : ∀ target ∈ r.optionForces, ∀ other ∈ r.optionForces, target.option = other.option →
    target.value = other.value ∨ ∃ last ∈ r.platformForces p, last.option = target.option

/-- What the second run has come to: every option is as the first run left it, or has been
forced to a value that the platform will replace. -/
def Reforced (r : PruneRules) (p : Platform) (config again : Configuration) : Prop :=
  ∀ name, again.get? name = config.get? name ∨
    ∃ before value, config.get? name = some (.present before) ∧
      again.get? name = some (.present value) ∧
      (⟨name, value⟩ : Assignment) ∈ r.optionForces ∧
      ∃ target ∈ r.platformForces p, target.option = name

/-- A rule that fires in the second run has fired in the first. -/
theorem holds_before {rule : OptionRule} (untangled : r.Untangled p)
    (mem : rule ∈ r.optionRules) (run : r.Yields p first config)
    (kept : r.Reforced p config again) (holds : rule.condition.holds again = true) :
    rule.condition.holds first = true := by
  obtain ⟨noOption, noPlatform⟩ := untangled.untriggered rule mem
  unfold Assignment.holds at holds ⊢
  rw [beq_iff_eq] at holds ⊢
  rcases kept rule.condition.option with same | ⟨-, value, -, forced, mem, -⟩
  · rw [same] at holds
    exact run.value_before noOption noPlatform holds
  · rw [holds] at forced
    cases forced
    exact absurd mem noOption

theorem Reforced.present {name : String} {value : Value} (kept : r.Reforced p config again)
    (present : config.get? name = some (.present value)) :
    ∃ held, again.get? name = some (.present held) := by
  rcases kept name with same | ⟨-, held, -, found, -⟩
  · exact ⟨value, same.trans present⟩
  · exact ⟨held, found⟩

theorem Reforced.unchanged {name : String} (kept : r.Reforced p config again)
    (gone : ∀ value, config.get? name ≠ some (.present value)) :
    again.get? name = config.get? name := by
  rcases kept name with same | ⟨before, -, present, -⟩
  · exact same
  · exact absurd present (gone before)

/-- An option that the first run removed is not there for the second to remove. -/
theorem reforced_remove {option : String} {cause other : Cause}
    (run : r.Yields p (first.remove option other) config) (kept : r.Reforced p config again) :
    (again.remove option cause).get? option = config.get? option := by
  have gone : ∀ value, config.get? option ≠ some (.present value) := by
    intro value present
    obtain ⟨before, held⟩ := run.leadsTo.present_before present
    rw [Configuration.get?_remove, if_pos rfl] at held
    obtain ⟨state, -, removed⟩ := Option.map_eq_some_iff.1 held
    cases state <;> cases removed
  have same := kept.unchanged gone
  rw [(again.leadsTo_remove option cause).get?_of_gone fun value => same ▸ gone value, same]

/-- A value that the first run forced is forced again where it stood, or where the platform
has the last word. -/
theorem reforced_force {target : Assignment} (untangled : r.Untangled p)
    (mem : target ∈ r.optionForces)
    (run : r.Yields p (first.force target.option target.value) config)
    (kept : r.Reforced p config again) :
    (again.force target.option target.value).get? target.option = config.get? target.option ∨
      ∃ before, config.get? target.option = some (.present before) ∧
        (again.force target.option target.value).get? target.option =
          some (.present target.value) ∧
        ∃ last ∈ r.platformForces p, last.option = target.option := by
  by_cases present : ∃ value, config.get? target.option = some (.present value)
  · obtain ⟨value, held⟩ := present
    obtain ⟨current, found⟩ := kept.present held
    rw [Configuration.get?_force, if_pos rfl, held, found]
    rcases run.value_from target.option value held with before | option | platform
    · rw [Configuration.get?_force, if_pos rfl] at before
      obtain ⟨state, -, given⟩ := Option.map_eq_some_iff.1 before
      cases state with
      | present => exact .inl (congrArg some given)
      | absent => cases given
    · rcases untangled.agreeing target mem _ option rfl with same | last
      · exact .inl (congrArg (some ∘ State.present) same)
      · exact .inr ⟨value, rfl, rfl, last⟩
    · exact .inr ⟨value, rfl, rfl, _, platform, rfl⟩
  · have gone : ∀ value, config.get? target.option ≠ some (.present value) :=
      fun value held => present ⟨value, held⟩
    have same := kept.unchanged gone
    rw [(again.leadsTo_force _ _).get?_of_gone fun value => same ▸ gone value, same]
    exact .inl rfl

/-- A rule that fires in both runs takes nothing more away in the second, and forces
again what the first left or what the platform will replace. -/
theorem reforced_fire {action : PruneAction} {cause : Cause} (untangled : r.Untangled p)
    (mem : ∀ target, action.forced? = some target → target ∈ r.optionForces)
    (run : r.Yields p (action.run cause first) config) (kept : r.Reforced p config again) :
    r.Reforced p config (action.run cause again) := by
  intro name
  by_cases about : action.option = name
  · subst about
    cases action with
    | remove option => exact .inl (reforced_remove run kept)
    | force target =>
      have known := mem target rfl
      rcases reforced_force untangled known run kept with same | ⟨before, held, given, last⟩
      · exact .inl same
      · exact .inr ⟨before, target.value, held, given, known, last⟩
  · rw [PruneAction.get?_run_of_other about]
    exact kept name

theorem reforced_optionRule {rule : OptionRule} (untangled : r.Untangled p)
    (mem : rule ∈ r.optionRules) (run : r.Yields p (rule.run first) config)
    (kept : r.Reforced p config again) : r.Reforced p config (rule.run again) := by
  cases holds : rule.condition.holds again with
  | false =>
    unfold OptionRule.run
    rw [holds]
    exact kept
  | true =>
    have started := (yields_optionRule mem p first).trans run
    have fired := holds_before untangled mem started kept holds
    unfold OptionRule.run at run ⊢
    rw [if_pos fired] at run
    rw [if_pos holds]
    exact reforced_fire untangled
      (fun target forced => List.mem_filterMap.2 ⟨rule, mem, forced⟩) run kept

theorem reforced_optionRules {rules : List OptionRule} (untangled : r.Untangled p)
    (known : ∀ rule ∈ rules, rule ∈ r.optionRules)
    (run : r.Yields p (rules.foldl (fun config rule => rule.run config) first) config)
    (kept : r.Reforced p config again) :
    r.Reforced p config (rules.foldl (fun config rule => rule.run config) again) := by
  induction rules generalizing first again with
  | nil => exact kept
  | cons rule rest ih =>
    have knownRest : ∀ rule ∈ rest, rule ∈ r.optionRules :=
      fun rule mem => known rule (List.mem_cons_of_mem _ mem)
    have later := (yields_optionRules knownRest p (rule.run first)).trans run
    exact ih knownRest run
      (reforced_optionRule untangled (known rule List.mem_cons_self) later kept)

/-- Rules that do not meddle with each other bring every configuration to rest. -/
theorem rests_of_untangled (untangled : r.Untangled p)
    (run : r.Yields p (r.runOptionRules first) config) : r.Rests p config := by
  have kept : r.Reforced p config (r.runOptionRules config) :=
    reforced_optionRules untangled (fun _ mem => mem) run fun _ => .inl rfl
  intro name value present
  rcases kept name with same | ⟨before, again, -, found, -, forced⟩
  · exact ⟨value, same.trans present, .inl rfl⟩
  · exact ⟨again, found, .inr forced⟩

end PruneRules

namespace Recipe

variable {recipe : Recipe} {p : Platform} {config : Configuration}

/-- The pruning rules and then the closing. -/
def settle (recipe : Recipe) (p : Platform) (config : Configuration) : Configuration :=
  recipe.catalog.close (recipe.pruneRules.run p config)

theorem configure_eq_ok_iff {request : Request} :
    recipe.configure p request = .ok config ↔
      ∃ start, recipe.catalog.start request = .ok start ∧ recipe.settle p start = config := by
  unfold configure
  cases recipe.catalog.start request with
  | error fault => simp [bind, Except.bind]
  | ok start => simp [bind, Except.bind, pure, Except.pure, settle]

/-- The rules on the platform find nothing left to do on a settled configuration. -/
theorem platformState_settle {start : Configuration} {name : String} {value : Value}
    (present : (recipe.settle p start).get? name = some (.present value)) :
    recipe.pruneRules.platformState p name (.present value) = .present value := by
  have pruned := Catalog.get?_of_close present
  rw [PruneRules.run, PruneRules.get?_runPlatformRules] at pruned
  obtain ⟨state, -, given⟩ := Option.map_eq_some_iff.1 pruned
  rw [← given]
  exact recipe.pruneRules.platformState_platformState p name state

/-- The closing cannot give back what the rules change on a closed configuration. -/
theorem settle_eq_self_iff (closed : recipe.catalog.close config = config) :
    recipe.settle p config = config ↔ recipe.pruneRules.run p config = config := by
  constructor
  · intro same
    refine Configuration.ext_get? fun name => ?_
    by_cases present : ∃ value, config.get? name = some (.present value)
    · obtain ⟨value, held⟩ := present
      rw [held]
      apply Catalog.get?_of_close
      rw [← held]
      exact congrArg (·.get? name) same
    · have run := recipe.pruneRules.leadsTo_run p config
      exact run.get?_of_gone fun value held => present ⟨value, held⟩
  · intro same
    unfold settle
    rw [same, closed]

theorem yields_settle (recipe : Recipe) (p : Platform) (start : Configuration) :
    recipe.pruneRules.Yields p (recipe.pruneRules.runOptionRules start)
      (recipe.settle p start) := by
  refine (recipe.pruneRules.yields_runPlatformRules p _).trans ?_
  exact ⟨recipe.catalog.leadsTo_close _, fun name value present =>
    .inl (Catalog.get?_of_close present)⟩

/-- On a configuration that a request was resolved to, the rules and the closing change
nothing more exactly when the configuration rests under the rules on options, and in
particular when the rules are untangled. -/
theorem settle_again_iff {request : Request} (h : recipe.configure p request = .ok config) :
    (recipe.settle p config = config ↔ recipe.pruneRules.Rests p config) ∧
      (recipe.pruneRules.Untangled p → recipe.settle p config = config) := by
  obtain ⟨start, -, rfl⟩ := configure_eq_ok_iff.1 h
  have exactAtRest : recipe.settle p (recipe.settle p start) = recipe.settle p start ↔
      recipe.pruneRules.Rests p (recipe.settle p start) :=
    (settle_eq_self_iff (recipe.catalog.close_close _)).trans
      (PruneRules.run_eq_self_iff fun name value present => platformState_settle present)
  refine ⟨exactAtRest, fun untangled => exactAtRest.2 ?_⟩
  exact PruneRules.rests_of_untangled untangled (recipe.yields_settle p start)

/-! ## Two recipes that differ in what they force -/

/-- A recipe in which a shared build removes `fPIC`, and every platform forces one
assignment. -/
def forcing (target : Assignment) : Recipe where
  catalog := .ofCalls [.flag "shared" false, .flag "fPIC" true, .flag "lto" true]
  pruneRules := ⟨[⟨⟨"shared", .flag true⟩, .remove "fPIC"⟩], [⟨.any, .force target⟩]⟩
  pinRules := []
  variableRules := ⟨"", []⟩
  linkageOption := "shared"

/-- A configuration of that recipe. -/
def forcingStates (fPIC : State) (lto shared : Bool) : Configuration :=
  ⟨.ofList [("fPIC", fPIC), ("lto", .present (.flag lto)), ("shared", .present (.flag shared))]⟩

theorem settle_forcing {target : Assignment} {start pruned : Configuration}
    (run : (forcing target).pruneRules.run p start = pruned)
    (closed : (forcing target).catalog.orphans pruned = []) :
    (forcing target).settle p start = pruned := by
  unfold settle
  rw [run, Catalog.close_of_orphans_nil closed]

theorem settle_again_forcing_lto :
    let request : Request := .ofList [("shared", .flag true)]
    let config := forcingStates (.absent (.optionRule "remove fPIC when shared=true")) false true
    (forcing ⟨"lto", .flag false⟩).configure ⟨.linux, .gcc, .x86_64⟩ request = .ok config ∧
      (forcing ⟨"lto", .flag false⟩).settle ⟨.linux, .gcc, .x86_64⟩ config = config := by
  have resolved : (forcing ⟨"lto", .flag false⟩).configure ⟨.linux, .gcc, .x86_64⟩
      (.ofList [("shared", .flag true)]) =
        .ok (forcingStates (.absent (.optionRule "remove fPIC when shared=true")) false true) := by
    refine configure_eq_ok_iff.2 ⟨forcingStates (.present (.flag true)) true true, rfl, ?_⟩
    exact settle_forcing (by decide) (by decide)
  have untangled : (forcing ⟨"lto", .flag false⟩).pruneRules.Untangled
      ⟨.linux, .gcc, .x86_64⟩ := ⟨by decide, by decide⟩
  exact ⟨resolved, (settle_again_iff resolved).2 untangled⟩

/-- Where the platform forces what a rule on options waits for, that rule fires in
the second run only: `fPIC` outlives the first run and not the second. -/
theorem settle_not_idempotent :
    ¬ ∀ (calls : List Declaration) (pruneRules : PruneRules) (pinRules : List PinRule)
        (variableRules : VariableRules) (linkageOption : String) (recipe : Recipe) (p : Platform)
        (request : Request) (config : Configuration),
      assemble (.ofCalls calls) pruneRules pinRules variableRules linkageOption = .ok recipe →
      recipe.configure p request = .ok config → recipe.settle p config = config := by
  intro idempotent
  have accepted : assemble
      (.ofCalls [.flag "shared" false, .flag "fPIC" true, .flag "lto" true])
      (forcing ⟨"shared", .flag true⟩).pruneRules [] ⟨"", []⟩ "shared" =
        .ok (forcing ⟨"shared", .flag true⟩) := rfl
  have resolved : (forcing ⟨"shared", .flag true⟩).configure ⟨.linux, .gcc, .x86_64⟩ .empty =
      .ok (forcingStates (.present (.flag true)) true true) := by
    refine configure_eq_ok_iff.2 ⟨forcingStates (.present (.flag true)) true false, rfl, ?_⟩
    exact settle_forcing (by decide) (by decide)
  have again : (forcing ⟨"shared", .flag true⟩).settle ⟨.linux, .gcc, .x86_64⟩
      (forcingStates (.present (.flag true)) true true) =
        forcingStates (.absent (.optionRule "remove fPIC when shared=true")) true true :=
    settle_forcing (by decide) (by decide)
  have same := idempotent _ _ _ _ _ _ _ _ _ accepted resolved
  rw [again] at same
  exact absurd same (by decide)

end Recipe

end PackageConfig
