import PackageConfig.Rules.Prune
import PackageConfig.Proofs.Options.Configuration

/-!
What pruning rules do to one option.

The rules on the platform depend on the platform alone, so what they make of a state
has a closed form (`get?_runPlatformRules`): the first removal that matches, or else
the last forced value that matches. So the order of these rules decides causes and values, but
not which options are absent (`run_closed_form`). The rules on options read the configuration
between them and have no closed form. What is said of both is `Yields`: where a value can have
come from.
-/

namespace PackageConfig

variable {config : Configuration} {p : Platform} {name : String} {value : Value}

/-! ## One rule -/

namespace PruneAction

/-- The assignment that an action forces, if it forces one. -/
def forced? : PruneAction → Option Assignment
  | .remove _ => none
  | .force target => some target

theorem forced?_eq_some_iff {action : PruneAction} {target : Assignment} :
    action.forced? = some target ↔ action = .force target := by
  cases action <;> simp [forced?]

theorem leadsTo_run (action : PruneAction) (cause : Cause) (config : Configuration) :
    config.LeadsTo (action.run cause config) := by
  cases action with
  | remove option => exact config.leadsTo_remove option cause
  | force target => exact config.leadsTo_force target.option target.value

/-- What an action makes of a state of the option it is about. -/
def effect (action : PruneAction) (cause : Cause) : State → State :=
  match action with
  | .remove _ => State.remove cause
  | .force target => State.force target.value

theorem get?_run (action : PruneAction) (cause : Cause) (config : Configuration) (name : String) :
    (action.run cause config).get? name =
      if action.option = name then (config.get? name).map (action.effect cause)
      else config.get? name := by
  cases action with
  | remove option => exact config.get?_remove option name cause
  | force target => exact config.get?_force target.option name target.value

theorem get?_run_of_other {action : PruneAction} {cause : Cause}
    (other : action.option ≠ name) :
    (action.run cause config).get? name = config.get? name := by
  rw [get?_run, if_neg other]

/-- An action makes the same of an option that is present, whatever its value. -/
theorem effect_present (action : PruneAction) (cause : Cause) (value other : Value) :
    action.effect cause (.present value) = action.effect cause (.present other) := by
  cases action <;> rfl

/-- A value after an action was there before, unless the action forced it. -/
theorem present_of_run {action : PruneAction} {cause : Cause}
    (present : (action.run cause config).get? name = some (.present value)) :
    action.forced? = some ⟨name, value⟩ ∨ config.get? name = some (.present value) := by
  cases action with
  | remove option => exact .inr (Configuration.get?_of_remove present)
  | force target =>
    rw [run, Configuration.get?_force] at present
    split at present
    next same =>
      obtain ⟨state, held, given⟩ := Option.map_eq_some_iff.1 present
      cases state with
      | present before =>
        cases given
        subst same
        exact .inl rfl
      | absent cause => cases given
    · exact .inr present

end PruneAction

namespace OptionRule

theorem leadsTo_run (rule : OptionRule) (config : Configuration) :
    config.LeadsTo (rule.run config) := by
  unfold run
  split
  · exact rule.action.leadsTo_run _ config
  · exact .refl config

theorem present_of_run {rule : OptionRule}
    (present : (rule.run config).get? name = some (.present value)) :
    rule.action.forced? = some ⟨name, value⟩ ∨ config.get? name = some (.present value) := by
  unfold run at present
  split at present
  · exact PruneAction.present_of_run present
  · exact .inr present

end OptionRule

namespace PlatformRule

theorem leadsTo_run (rule : PlatformRule) (p : Platform) (config : Configuration) :
    config.LeadsTo (rule.run p config) := by
  unfold run
  split
  · exact rule.action.leadsTo_run _ config
  · exact .refl config

/-- A rule that does not match, or is about another option, leaves an option as it was. -/
theorem get?_run_of_skipped {rule : PlatformRule}
    (skipped : rule.condition.holds p = false ∨ rule.action.option ≠ name) :
    (rule.run p config).get? name = config.get? name := by
  unfold run
  rcases skipped with unmatched | other
  · rw [unmatched]
    rfl
  · split
    · exact PruneAction.get?_run_of_other other
    · rfl

end PlatformRule

namespace PruneRules

variable {r : PruneRules}

/-! ## The rules on options -/

/-- The assignments that the rules on options force, where their conditions hold. -/
def optionForces (r : PruneRules) : List Assignment :=
  r.optionRules.filterMap fun rule => rule.action.forced?

theorem leadsTo_runOptionRules (r : PruneRules) (config : Configuration) :
    config.LeadsTo (r.runOptionRules config) := by
  unfold runOptionRules
  apply Configuration.leadsTo_foldl
  intro s rule
  exact rule.leadsTo_run s

/-! ## The rules on the platform -/

/-- The assignments that the rules matching a platform force, in their order. -/
def platformForces (r : PruneRules) (p : Platform) : List Assignment :=
  (r.platformRules.filter fun rule => rule.condition.holds p).filterMap fun rule =>
    rule.action.forced?

/-- The first rule that matches a platform and removes an option. -/
def platformRemoval? (r : PruneRules) (p : Platform) (name : String) : Option PlatformRule :=
  r.platformRules.find? fun rule => rule.condition.holds p && rule.action == .remove name

/-- The last value that the rules matching a platform force on an option. -/
def platformValue? (r : PruneRules) (p : Platform) (name : String) : Option Value :=
  ((r.platformForces p).filter fun target => target.option == name).getLast?.map Assignment.value

/-- What the rules matching a platform make of a state of an option. -/
def platformState (r : PruneRules) (p : Platform) (name : String) : State → State
  | .absent cause => .absent cause
  | .present value =>
    match r.platformRemoval? p name with
    | some rule => .absent (.platformRule rule.describe)
    | none => .present ((r.platformValue? p name).getD value)

theorem leadsTo_runPlatformRules (r : PruneRules) (p : Platform) (config : Configuration) :
    config.LeadsTo (r.runPlatformRules p config) := by
  unfold runPlatformRules
  apply Configuration.leadsTo_foldl
  intro s rule
  exact rule.leadsTo_run p s

theorem leadsTo_run (r : PruneRules) (p : Platform) (config : Configuration) :
    config.LeadsTo (r.run p config) :=
  (r.leadsTo_runOptionRules config).trans (r.leadsTo_runPlatformRules p _)

theorem platformState_congr {r other : PruneRules}
    (removal : r.platformRemoval? p name = other.platformRemoval? p name)
    (value : r.platformValue? p name = other.platformValue? p name) :
    r.platformState p name = other.platformState p name := by
  funext state
  cases state with
  | absent cause => rfl
  | present before => rw [platformState, platformState, removal, value]

/-- A rule that does not match, or is about another option, plays no part. -/
theorem platformState_skip (optionRules : List OptionRule) (rule : PlatformRule)
    (rest : List PlatformRule)
    (skipped : rule.condition.holds p = false ∨ rule.action.option ≠ name) :
    platformState ⟨optionRules, rule :: rest⟩ p name =
      platformState ⟨optionRules, rest⟩ p name := by
  obtain ⟨condition, action⟩ := rule
  rcases skipped with unmatched | other
  · apply platformState_congr
    · simp [platformRemoval?, unmatched]
    · simp [platformValue?, platformForces, unmatched]
  · cases action with
    | remove option =>
      have other : option ≠ name := other
      apply platformState_congr
      · simp [platformRemoval?, other]
      · cases matched : condition.holds p <;>
          simp [platformValue?, platformForces, matched, PruneAction.forced?]
    | force target =>
      have other : target.option ≠ name := other
      apply platformState_congr
      · simp [platformRemoval?]
      · cases matched : condition.holds p <;>
          simp [platformValue?, platformForces, matched, PruneAction.forced?, other]

theorem platformState_cons (optionRules : List OptionRule) (rule : PlatformRule)
    (rest : List PlatformRule) (p : Platform) (config : Configuration) (name : String) :
    ((rule.run p config).get? name).map (platformState ⟨optionRules, rest⟩ p name) =
      (config.get? name).map (platformState ⟨optionRules, rule :: rest⟩ p name) := by
  by_cases skipped : rule.condition.holds p = false ∨ rule.action.option ≠ name
  · rw [PlatformRule.get?_run_of_skipped skipped, platformState_skip _ _ _ skipped]
  obtain ⟨matched, about⟩ := not_or.1 skipped
  rw [Bool.not_eq_false] at matched
  rw [Decidable.not_not] at about
  rw [PlatformRule.run, if_pos matched]
  subst about
  obtain ⟨condition, action⟩ := rule
  cases action with
  | remove option =>
    have removal : platformRemoval? ⟨optionRules, ⟨condition, .remove option⟩ :: rest⟩ p option =
        some ⟨condition, .remove option⟩ := by
      simp [platformRemoval?, matched]
    rw [PruneAction.option, PruneAction.run, Configuration.get?_remove, if_pos rfl,
      Option.map_map]
    congr 1
    funext state
    cases state with
    | absent cause => rfl
    | present before =>
      rw [platformState, removal]
      rfl
  | force target =>
    have removal : platformRemoval? ⟨optionRules, ⟨condition, .force target⟩ :: rest⟩ p
        target.option = platformRemoval? ⟨optionRules, rest⟩ p target.option := by
      simp [platformRemoval?]
    have value : platformValue? ⟨optionRules, ⟨condition, .force target⟩ :: rest⟩ p
        target.option =
          some ((platformValue? ⟨optionRules, rest⟩ p target.option).getD target.value) := by
      simp [platformValue?, platformForces, matched, PruneAction.forced?, List.getLast?_cons]
    rw [PruneAction.option, PruneAction.run, Configuration.get?_force, if_pos rfl,
      Option.map_map]
    congr 1
    funext state
    cases state with
    | absent cause => rfl
    | present before =>
      rw [platformState, removal, value]
      rfl

/-- Every state after the rules on the platform, from the state before them. -/
theorem get?_runPlatformRules (r : PruneRules) (p : Platform) (config : Configuration)
    (name : String) :
    (r.runPlatformRules p config).get? name = (config.get? name).map (r.platformState p name) := by
  obtain ⟨optionRules, platformRules⟩ := r
  induction platformRules generalizing config with
  | nil =>
    change config.get? name = _
    cases held : config.get? name with
    | none => rfl
    | some state => cases state <;> rfl
  | cons rule rest ih => exact (ih (rule.run p config)).trans (platformState_cons ..)

theorem platformValue?_eq_none_iff :
    r.platformValue? p name = none ↔ ∀ target ∈ r.platformForces p, target.option ≠ name := by
  simp [platformValue?]

theorem platformRemoval?_isSome_iff :
    (r.platformRemoval? p name).isSome = true ↔
      ∃ rule ∈ r.platformRules, rule.condition.holds p = true ∧ rule.action = .remove name := by
  simp [platformRemoval?]

/-- Where no rule on the platform forces a value, an option that is not removed keeps its own. -/
theorem platformState_of_removals (removals : ∀ rule ∈ r.platformRules, rule.action.forced? = none)
    (p : Platform) (name : String) (value : Value) :
    r.platformState p name (.present value) =
      match r.platformRemoval? p name with
      | some rule => .absent (.platformRule rule.describe)
      | none => .present value := by
  have unforced : r.platformForces p = [] :=
    List.filterMap_eq_nil_iff.2 fun rule mem => removals rule (List.mem_filter.1 mem).1
  have last : r.platformValue? p name = none := by
    unfold platformValue?
    rw [unforced]
    rfl
  rw [platformState, last]
  rfl

theorem mem_platformForces_of_platformValue? (last : r.platformValue? p name = some value) :
    (⟨name, value⟩ : Assignment) ∈ r.platformForces p := by
  obtain ⟨target, found, rfl⟩ := Option.map_eq_some_iff.1 last
  obtain ⟨mem, about⟩ := List.mem_filter.1 (List.mem_of_getLast? found)
  rw [beq_iff_eq] at about
  rw [← about]
  exact mem

/-- Running the rules on the platform again changes nothing more. -/
theorem platformState_platformState (r : PruneRules) (p : Platform) (name : String)
    (state : State) :
    r.platformState p name (r.platformState p name state) = r.platformState p name state := by
  cases state with
  | absent cause => rfl
  | present before =>
    cases removal : r.platformRemoval? p name with
    | some rule => simp [platformState, removal]
    | none =>
      cases value : r.platformValue? p name <;> simp [platformState, removal, value]

/-! ## Where a value comes from -/

/-- What a run of the rules, or of a part of them, may make of a configuration: it leads
on, and a value that was not there is one that some rule forces. -/
structure Yields (r : PruneRules) (p : Platform) (s t : Configuration) : Prop where
  leadsTo : s.LeadsTo t
  value_from : ∀ name value, t.get? name = some (.present value) →
    s.get? name = some (.present value) ∨
      (⟨name, value⟩ : Assignment) ∈ r.optionForces ∨
      (⟨name, value⟩ : Assignment) ∈ r.platformForces p

namespace Yields

variable {s t u : Configuration}

theorem refl (r : PruneRules) (p : Platform) (s : Configuration) : r.Yields p s s :=
  ⟨.refl s, fun _ _ present => .inl present⟩

theorem trans (first : r.Yields p s t) (second : r.Yields p t u) : r.Yields p s u := by
  refine ⟨first.leadsTo.trans second.leadsTo, fun name value present => ?_⟩
  rcases second.value_from name value present with before | forced
  · exact first.value_from name value before
  · exact .inr forced

/-- A value that no rule forces was there before. -/
theorem value_before {target : Assignment} (run : r.Yields p s t)
    (option : target ∉ r.optionForces) (platform : target ∉ r.platformForces p)
    (holds : t.get? target.option = some (.present target.value)) :
    s.get? target.option = some (.present target.value) := by
  rcases run.value_from target.option target.value holds with before | forced | forced
  · exact before
  · exact absurd forced option
  · exact absurd forced platform

end Yields

theorem yields_optionRule {rule : OptionRule} (mem : rule ∈ r.optionRules)
    (p : Platform) (config : Configuration) : r.Yields p config (rule.run config) := by
  refine ⟨rule.leadsTo_run config, fun name value present => ?_⟩
  rcases OptionRule.present_of_run present with forced | before
  · exact .inr (.inl (List.mem_filterMap.2 ⟨rule, mem, forced⟩))
  · exact .inl before

theorem yields_optionRules {rules : List OptionRule} (known : ∀ rule ∈ rules, rule ∈ r.optionRules)
    (p : Platform) (config : Configuration) :
    r.Yields p config (rules.foldl (fun config rule => rule.run config) config) := by
  induction rules generalizing config with
  | nil => exact .refl r p config
  | cons rule rest ih =>
    have first := yields_optionRule (known rule List.mem_cons_self) p config
    exact first.trans (ih (fun rule mem => known rule (List.mem_cons_of_mem _ mem)) _)

theorem yields_runPlatformRules (r : PruneRules) (p : Platform) (config : Configuration) :
    r.Yields p config (r.runPlatformRules p config) := by
  refine ⟨r.leadsTo_runPlatformRules p config, fun name value present => ?_⟩
  rw [get?_runPlatformRules] at present
  obtain ⟨state, held, given⟩ := Option.map_eq_some_iff.1 present
  cases state with
  | absent cause => cases given
  | present before =>
    rw [platformState] at given
    split at given
    · cases given
    · cases last : r.platformValue? p name with
      | none =>
        rw [last] at given
        cases given
        exact .inl held
      | some forced =>
        rw [last] at given
        cases given
        exact .inr (.inr (mem_platformForces_of_platformValue? last))

theorem yields_run (r : PruneRules) (p : Platform) (config : Configuration) :
    r.Yields p config (r.run p config) :=
  (yields_optionRules (fun _ mem => mem) p config).trans (r.yields_runPlatformRules p _)

/-! ## Both tables -/

/-- An option is absent in the end when the rules on options removed it, or left it present for
some rule on the platform to remove. -/
theorem isAbsent_run_iff : (r.run p config).IsAbsent name ↔
    (r.runOptionRules config).IsAbsent name ∨
      (r.runOptionRules config).isPresent name = true ∧
        ∃ rule ∈ r.platformRules, rule.condition.holds p = true ∧ rule.action = .remove name := by
  unfold Configuration.IsAbsent
  rw [← platformRemoval?_isSome_iff, Configuration.isPresent_iff, run, get?_runPlatformRules]
  rcases (r.runOptionRules config).get? name with _ | value | cause
  · simp
  · cases removal : r.platformRemoval? p name <;> simp [platformState, removal]
  · simp [platformState]

/-- For every two tables of rules, whether they fit any declarations or not: an option that the
rules on options left unknown or absent stays as it is. Of the others, those that some matching
rule on the platform removes are absent, for the first such rule; the others hold the last value
that a matching rule forces on them, or else their own. So the order of the rules on the platform
plays no part for which options are absent. -/
theorem run_closed_form (r : PruneRules) (p : Platform) (config : Configuration) :
    (∀ name, (r.run p config).get? name =
      match (r.runOptionRules config).get? name with
      | none => none
      | some (.absent cause) => some (.absent cause)
      | some (.present value) =>
        match r.platformRemoval? p name, r.platformValue? p name with
        | some rule, _ => some (.absent (.platformRule rule.describe))
        | none, some forced => some (.present forced)
        | none, none => some (.present value)) ∧
      ∀ others, r.platformRules.Perm others → ∀ name,
        (r.run p config).IsAbsent name ↔ (run ⟨r.optionRules, others⟩ p config).IsAbsent name := by
  refine ⟨fun name => ?_, fun others perm name => ?_⟩
  · rw [run, get?_runPlatformRules]
    rcases (r.runOptionRules config).get? name with _ | value | cause
    · rfl
    · rw [Option.map_some, platformState]
      rcases r.platformRemoval? p name with _ | rule
      · rcases r.platformValue? p name with _ | forced <;> rfl
      · rfl
    · rfl
  · rw [isAbsent_run_iff, isAbsent_run_iff]
    have optionRules : (⟨r.optionRules, others⟩ : PruneRules).runOptionRules config =
        r.runOptionRules config := rfl
    simp only [optionRules, perm.mem_iff]

/-- Rules that force and remove the same options in turn. -/
def contested : PruneRules where
  optionRules := [⟨⟨"shared", .flag true⟩, .force ⟨"lto", .flag false⟩⟩]
  platformRules :=
    [⟨.any, .force ⟨"fPIC", .flag false⟩⟩, ⟨{ os := [.windows] }, .remove "lto"⟩,
      ⟨{ os := [.linux] }, .remove "fPIC"⟩, ⟨.any, .force ⟨"lto", .text "thin"⟩⟩,
      ⟨.any, .remove "fPIC"⟩, ⟨.any, .force ⟨"lto", .text "full"⟩⟩,
      ⟨.any, .force ⟨"fPIC", .flag true⟩⟩]

/-- On Linux the first removal of `fPIC` is recorded, whatever is forced on it before and after, and
the last value forced on `lto` stays. With the rules in the opposite order `fPIC` is absent too, for
another rule. -/
theorem run_closed_form_contested :
    let p : Platform := ⟨.linux, .gcc, .x86_64⟩
    let config : Configuration := ⟨.ofList [("fPIC", .present (.flag true)),
      ("lto", .present (.flag true)), ("shared", .present (.flag true))]⟩
    let reversed : PruneRules := ⟨contested.optionRules, contested.platformRules.reverse⟩
    (contested.run p config).get? "fPIC" =
        some (.absent (.platformRule "remove fPIC when os=linux")) ∧
      (contested.run p config).get? "lto" = some (.present (.text "full")) ∧
      (reversed.run p config).get? "fPIC" =
        some (.absent (.platformRule "remove fPIC when any platform")) ∧
      (reversed.run p config).get? "lto" = some (.present (.text "thin")) ∧
      ∀ name, (contested.run p config).IsAbsent name ↔ (reversed.run p config).IsAbsent name := by
  intro p config reversed
  obtain ⟨states, absences⟩ := run_closed_form contested p config
  obtain ⟨reversedStates, -⟩ := run_closed_form reversed p config
  refine ⟨(states "fPIC").trans ?_, (states "lto").trans ?_, (reversedStates "fPIC").trans ?_,
    (reversedStates "lto").trans ?_, absences _ (List.reverse_perm _).symm⟩
  all_goals decide

end PruneRules

end PackageConfig
