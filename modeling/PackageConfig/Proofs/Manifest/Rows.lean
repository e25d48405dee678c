import PackageConfig.Manifest
import PackageConfig.Proofs.Options.Declaring
import PackageConfig.Proofs.Options.Request
import PackageConfig.Proofs.Pin.WrittenForm
import PackageConfig.Proofs.Recipe.Validity

/-!
What the rows of a manifest make.

For each kind of row a relation says which declaration or rule it stands for, in terms of the fields
of the row (`OptionRow.Declares`, `PruneRow.OnOption`, `PruneRow.OnPlatform`, `PinRow.Makes`,
`VariableRow.Makes`). A manifest matches a recipe if, table by table, its rows stand for the entries
of the recipe one to one and in order (`Manifest.Matches`). The recipes that a manifest is assembled
to are exactly the valid ones that it matches (`toRecipe_eq_ok_iff`), so there is no other way to
lose, to double or to misplace a row.

Options and prune rows go into tables that already hold what the rows before them made. One row is a
step (`OptionRow.addTo_eq_ok_iff`, `PruneRow.addTo_eq_ok_iff`); all of them are an induction whose
invariant is the table so far.
-/

namespace PackageConfig

/-! ## Options -/

/-- A default can be stored exactly if the domain accepts it, as what it stands for. -/
theorem Domain.accepts_iff_readDefault {d : Domain} {given stored : Value} :
    d.Accepts given stored ↔
      d.contains (Catalog.readDefault d given) = true ∧ stored = Catalog.readDefault d given := by
  rw [← taken?_eq_some_iff]
  have taken : d.taken? given = if d.contains (Catalog.readDefault d given)
      then some (Catalog.readDefault d given) else none := by
    cases d with
    | enumeration members => rfl
    | boolean =>
      cases given with
      | flag on => rfl
      | text raw =>
        have read : Catalog.readDefault .boolean (.text raw) =
            (boolean.parse? raw).getD (.text raw) := rfl
        have parsed : taken? .boolean (.text raw) = boolean.parse? raw := rfl
        rw [read, parsed]
        cases found : boolean.parse? raw with
        | none => rfl
        | some value =>
          rw [Option.getD_some, if_pos (contains_of_parse? found)]
  rw [taken]
  split
  next inside => simp [inside, eq_comm]
  next outside => simp [outside]

/-- The domain that a row states: that of a switch unless it lists values, of which there must then
be some. -/
inductive OptionRow.States (row : OptionRow) : Domain → Prop
  | switch (unlisted : row.values = none) : States row .boolean
  | choice {values : List String} (listed : row.values = some values) (nonempty : values ≠ []) :
    States row (.enumeration values)

/-- A row stands for a declaration: of its name, in the domain and below the parent that it states,
and with its default as the domain takes it. -/
structure OptionRow.Declares (row : OptionRow) (d : Declaration) : Prop where
  name : d.name = row.name
  domain : row.States d.domain
  default : d.domain.Accepts row.default d.default
  parent : d.parent = row.parent

namespace OptionRow

variable {row : OptionRow} {c extended : Catalog} {d : Declaration}

theorem declaration_eq_ok_iff : row.declaration = .ok d ↔
    ∃ domain, row.States domain ∧ d = ⟨row.name, domain, row.default, row.parent⟩ := by
  unfold OptionRow.declaration
  constructor
  · intro made
    split at made
    next unlisted =>
      cases made
      exact ⟨_, .switch unlisted, rfl⟩
    next => cases made
    next values nonempty listed =>
      cases made
      exact ⟨_, .choice listed nonempty, rfl⟩
  · rintro ⟨domain, states, rfl⟩
    cases states with
    | switch unlisted => rw [unlisted]
    | choice listed nonempty =>
      obtain ⟨first, rest, rfl⟩ := List.exists_cons_of_ne_nil nonempty
      rw [listed]

/-- Declare what a row says in a catalog. -/
def addTo (row : OptionRow) (c : Catalog) : Except Fault Catalog := do
  c.declare (← row.declaration)

/-- A row is accepted for a declaration that it stands for, of a new name and below a declared
parent, which then is the last of the catalog. -/
theorem addTo_eq_ok_iff : row.addTo c = .ok extended ↔
    ∃ d, row.Declares d ∧ c.declares d.name = false ∧
      (∀ parent, d.parent = some parent → c.declares parent = true) ∧
      extended = ⟨c.declarations ++ [d], c.positions.insert d.name c.declarations.length⟩ := by
  unfold addTo
  simp only [Outcome.bind_eq_ok_iff, Catalog.declare_eq_ok_iff, declaration_eq_ok_iff]
  constructor
  · rintro ⟨_, ⟨domain, states, rfl⟩, fresh, inside, above, rfl⟩
    exact ⟨⟨row.name, domain, Catalog.readDefault domain row.default, row.parent⟩,
      ⟨rfl, states, Domain.accepts_iff_readDefault.2 ⟨inside, rfl⟩, rfl⟩, fresh, above, rfl⟩
  · rintro ⟨d, declares, fresh, above, rfl⟩
    obtain ⟨inside, stored⟩ := Domain.accepts_iff_readDefault.1 declares.default
    refine ⟨_, ⟨d.domain, declares.domain, rfl⟩, declares.name ▸ fresh, inside,
      declares.parent ▸ above, ?_⟩
    simp only [← stored, ← declares.name, ← declares.parent]

end OptionRow

namespace Catalog

variable {c built : Catalog} {rows : List OptionRow}

/-- A well formed catalog is determined by its declarations. -/
theorem WellFormed.ext {other : Catalog} (wf : c.WellFormed) (otherWf : other.WellFormed)
    (same : c.declarations = other.declarations) : c = other := by
  have positions : c.positions = other.positions :=
    NameMap.ext_get? fun name => Option.ext fun position => by
      rw [wf name position, otherWf name position, same]
  obtain ⟨declarations, _⟩ := c
  cases same
  cases positions
  rfl

/-- Rows that are accepted one after another add, each, the declaration that it stands for. -/
theorem declares_of_rows (ran : rows.foldlM (fun c row => row.addTo c) c = .ok built) :
    (∃ calls : List Declaration, calls.foldl offer c = built) ∧
      ∃ added, built.declarations = c.declarations ++ added ∧
        List.Forall₂ OptionRow.Declares rows added := by
  induction rows generalizing c with
  | nil =>
    cases ran
    exact ⟨⟨[], rfl⟩, [], by simp, .nil⟩
  | cons row rest ih =>
    obtain ⟨extended, here, ran⟩ := Outcome.bind_eq_ok_iff.1 ran
    obtain ⟨⟨calls, later⟩, added, listed, each⟩ := ih ran
    obtain ⟨asked, -, accepted⟩ := Outcome.bind_eq_ok_iff.1 here
    obtain ⟨d, declares, -, -, rfl⟩ := OptionRow.addTo_eq_ok_iff.1 here
    refine ⟨⟨asked :: calls, ?_⟩, d :: added, by simp [listed], .cons declares each⟩
    rw [List.foldl_cons, offer, accepted]
    exact later

/-- Rows that stand for the rest of the declarations of a catalog are accepted one after another,
and make the catalog: no name comes twice in it, and no parent too late. -/
theorem rows_of_declares (wf : built.WellFormed) (front : built.ParentsInFront)
    (soFar : c.WellFormed) {added : List Declaration}
    (listed : built.declarations = c.declarations ++ added)
    (each : List.Forall₂ OptionRow.Declares rows added) :
    rows.foldlM (fun c row => row.addTo c) c = .ok built := by
  induction each generalizing c with
  | nil =>
    rw [List.append_nil] at listed
    exact congrArg Except.ok (soFar.ext wf listed.symm)
  | @cons row d rows added declares _ ih =>
    have fresh : c.declares d.name = false := by
      refine soFar.not_declares_iff.2 fun old mem same => ?_
      have nodup := wf.names_nodup
      rw [listed, List.map_append, List.nodup_append] at nodup
      exact nodup.2.2 _ (List.mem_map_of_mem mem) _ (List.mem_map_of_mem List.mem_cons_self) same
    have above : ∀ parent, d.parent = some parent → c.declares parent = true := by
      intro parent stated
      have here : built.declarations[c.declarations.length]? = some d := by simp [listed]
      obtain ⟨position, before, found⟩ := front _ d parent here stated
      obtain ⟨p, atPosition, called⟩ := (wf parent position).1 found
      -- The parent stands in front of the row, and so among what is declared so far.
      rw [listed, List.getElem?_append_left before] at atPosition
      exact soFar.declares_iff.2 ⟨p, List.mem_of_getElem? atPosition, called⟩
    have added := OptionRow.addTo_eq_ok_iff.2 ⟨d, declares, fresh, above, rfl⟩
    obtain ⟨asked, -, accepted⟩ := Outcome.bind_eq_ok_iff.1 added
    rw [List.foldlM_cons, added]
    exact ih (wellFormed_declare soFar accepted) (by simp [listed])

end Catalog

/-! ## Pruning rules -/

/-- A row has one action: it removes an option, or it forces a value. -/
inductive PruneRow.Acts (row : PruneRow) : PruneAction → Prop
  | remove {option : String} (removes : row.remove = some option) (alone : row.force = none) :
    Acts row (.remove option)
  | force {target : Assignment} (forces : row.force = some target) (alone : row.remove = none) :
    Acts row (.force target)

/-- A row with a condition, and without a part of a platform, stands for a rule on an option. -/
structure PruneRow.OnOption (row : PruneRow) (rule : OptionRule) : Prop where
  condition : row.condition = some rule.condition
  unfiltered : row.target.os = [] ∧ row.target.compiler = [] ∧ row.target.arch = []
  acts : row.Acts rule.action

/-- A row without a condition stands for a rule on the platform. -/
structure PruneRow.OnPlatform (row : PruneRow) (rule : PlatformRule) : Prop where
  unconditioned : row.condition = none
  target : rule.condition = row.target
  acts : row.Acts rule.action

namespace PruneRow

variable {row : PruneRow} {rows : List PruneRow} {action : PruneAction}
  {tables extended : PruneRules}

theorem action_eq_ok_iff : row.action = .ok action ↔ row.Acts action := by
  unfold PruneRow.action
  constructor
  · intro acted
    split at acted
    next option removes alone =>
      cases acted
      exact .remove removes alone
    next target alone forces =>
      cases acted
      exact .force forces alone
    next => cases acted
  · intro acts
    cases acts with
    | remove removes alone => rw [removes, alone]
    | force forces alone => rw [forces, alone]

theorem target_eq_any_iff {target : PlatformFilter} :
    target = .any ↔ target.os = [] ∧ target.compiler = [] ∧ target.arch = [] := by
  obtain ⟨os, compiler, arch⟩ := target
  simp [PlatformFilter.any]

/-- A row adds the one rule that it stands for at the end of the table for rules of that kind. -/
theorem addTo_eq_ok_iff : row.addTo tables = .ok extended ↔
    (∃ rule, row.OnOption rule ∧ extended = tables.addOptionRule rule) ∨
      ∃ rule, row.OnPlatform rule ∧ extended = tables.addPlatformRule rule := by
  unfold addTo
  rw [Outcome.bind_eq_ok_iff]
  simp only [action_eq_ok_iff]
  cases stated : row.condition with
  | none =>
    constructor
    · rintro ⟨action, acts, ⟨⟩⟩
      exact .inr ⟨_, ⟨stated, rfl, acts⟩, rfl⟩
    · rintro (⟨rule, onOption, -⟩ | ⟨⟨condition, action⟩, onPlatform, rfl⟩)
      · cases stated.symm.trans onOption.condition
      · cases onPlatform.target
        exact ⟨action, onPlatform.acts, rfl⟩
  | some condition =>
    simp only [Outcome.check_eq_ok_iff, not_not, target_eq_any_iff]
    constructor
    · rintro ⟨action, acts, unfiltered, ⟨⟩⟩
      exact .inl ⟨_, ⟨stated, unfiltered, acts⟩, rfl⟩
    · rintro (⟨⟨given, action⟩, onOption, rfl⟩ | ⟨rule, onPlatform, -⟩)
      · cases stated.symm.trans onOption.condition
        exact ⟨action, onOption.acts, onOption.unfiltered, rfl⟩
      · cases stated.symm.trans onPlatform.unconditioned

/-- Two tables hold the rules of a list of rows: that on options those of the rows with a condition,
that on the platform those of the others, each in the order of its rows. -/
structure Fills (rows : List PruneRow) (optionRules : List OptionRule)
    (platformRules : List PlatformRule) : Prop where
  optionRules : List.Forall₂ OnOption (rows.filter (·.condition.isSome)) optionRules
  platformRules : List.Forall₂ OnPlatform (rows.filter (·.condition.isNone)) platformRules

theorem fills_cons_iff {optionRules : List OptionRule} {platformRules : List PlatformRule} :
    Fills (row :: rows) optionRules platformRules ↔
      (∃ rule others, row.OnOption rule ∧ Fills rows others platformRules ∧
        optionRules = rule :: others) ∨
      ∃ rule others, row.OnPlatform rule ∧ Fills rows optionRules others ∧
        platformRules = rule :: others := by
  constructor
  · rintro ⟨options, platforms⟩
    cases stated : row.condition with
    | some condition =>
      rw [List.filter_cons_of_pos (by simp [stated])] at options
      rw [List.filter_cons_of_neg (by simp [stated])] at platforms
      obtain ⟨rule, others, here, later, rfl⟩ := List.forall₂_cons_left_iff.1 options
      exact .inl ⟨rule, others, here, ⟨later, platforms⟩, rfl⟩
    | none =>
      rw [List.filter_cons_of_neg (by simp [stated])] at options
      rw [List.filter_cons_of_pos (by simp [stated])] at platforms
      obtain ⟨rule, others, here, later, rfl⟩ := List.forall₂_cons_left_iff.1 platforms
      exact .inr ⟨rule, others, here, ⟨options, later⟩, rfl⟩
  · rintro (⟨rule, others, here, fills, rfl⟩ | ⟨rule, others, here, fills, rfl⟩)
    · refine ⟨?_, ?_⟩
      · rw [List.filter_cons_of_pos (by simp [here.condition])]
        exact .cons here fills.optionRules
      · rw [List.filter_cons_of_neg (by simp [here.condition])]
        exact fills.platformRules
    · refine ⟨?_, ?_⟩
      · rw [List.filter_cons_of_neg (by simp [here.unconditioned])]
        exact fills.optionRules
      · rw [List.filter_cons_of_pos (by simp [here.unconditioned])]
        exact .cons here fills.platformRules

/-- Rows that are added one after another fill both tables behind what stands there. -/
theorem addAll_eq_ok_iff : rows.foldlM (fun tables row => row.addTo tables) tables = .ok extended ↔
    ∃ optionRules platformRules, Fills rows optionRules platformRules ∧
      extended = ⟨tables.optionRules ++ optionRules, tables.platformRules ++ platformRules⟩ := by
  induction rows generalizing tables with
  | nil =>
    constructor
    · rintro ⟨⟩
      exact ⟨[], [], ⟨.nil, .nil⟩, by simp⟩
    · rintro ⟨optionRules, platformRules, ⟨options, platforms⟩, rfl⟩
      cases options
      cases platforms
      simp [pure, Except.pure]
  | cons row rest ih =>
    rw [List.foldlM_cons, Outcome.bind_eq_ok_iff]
    simp only [addTo_eq_ok_iff, ih, fills_cons_iff]
    constructor
    · rintro ⟨_, ⟨rule, here, rfl⟩ | ⟨rule, here, rfl⟩, optionRules, platformRules, fills, rfl⟩
      · exact ⟨_, _, .inl ⟨rule, optionRules, here, fills, rfl⟩, by simp [PruneRules.addOptionRule]⟩
      · exact ⟨_, _, .inr ⟨rule, platformRules, here, fills, rfl⟩,
          by simp [PruneRules.addPlatformRule]⟩
    · rintro ⟨optionRules, platformRules,
        ⟨rule, others, here, fills, rfl⟩ | ⟨rule, others, here, fills, rfl⟩, rfl⟩
      · exact ⟨_, .inl ⟨rule, here, rfl⟩, others, platformRules, fills,
          by simp [PruneRules.addOptionRule]⟩
      · exact ⟨_, .inr ⟨rule, here, rfl⟩, optionRules, others, fills,
          by simp [PruneRules.addPlatformRule]⟩

/-- A row has exactly one of its two actions, and no part of a platform besides a condition. -/
structure Sound (row : PruneRow) : Prop where
  one_action : [row.remove.isSome, row.force.isSome].count true = 1
  unmixed : row.condition.isSome = true →
    row.target.os = [] ∧ row.target.compiler = [] ∧ row.target.arch = []

theorem Acts.one_action (acts : row.Acts action) :
    [row.remove.isSome, row.force.isSome].count true = 1 := by
  cases acts with
  | remove removes alone => simp [removes, alone]
  | force forces alone => simp [forces, alone]

theorem OnOption.sound {rule : OptionRule} (onOption : row.OnOption rule) : row.Sound :=
  ⟨onOption.acts.one_action, fun _ => onOption.unfiltered⟩

theorem OnPlatform.sound {rule : PlatformRule} (onPlatform : row.OnPlatform rule) : row.Sound := by
  refine ⟨onPlatform.acts.one_action, fun conditioned => ?_⟩
  rw [onPlatform.unconditioned] at conditioned
  cases conditioned

theorem Fills.sound {optionRules : List OptionRule} {platformRules : List PlatformRule}
    (fills : Fills rows optionRules platformRules) : ∀ row ∈ rows, row.Sound := by
  intro row mem
  cases stated : row.condition with
  | some condition =>
    have each := (List.forall₂_and_left _ _).1
      (fills.optionRules.imp fun row rule onOption => ⟨onOption.sound, onOption⟩)
    exact each.1 row (List.mem_filter.2 ⟨mem, by simp [stated]⟩)
  | none =>
    have each := (List.forall₂_and_left _ _).1
      (fills.platformRules.imp fun row rule onPlatform => ⟨onPlatform.sound, onPlatform⟩)
    exact each.1 row (List.mem_filter.2 ⟨mem, by simp [stated]⟩)

end PruneRow

/-! ## Rules on pins and on variables -/

/-- A row stands for a rule on its options, and each of its texts writes one of the pins. -/
structure PinRow.Makes (row : PinRow) (rule : PinRule) : Prop where
  options : rule.options = row.options
  pins : List.Forall₂ Pin.Writes row.pins rule.pins

theorem PinRow.rule_eq_ok_iff {row : PinRow} {rule : PinRule} :
    row.rule = .ok rule ↔ row.Makes rule := by
  unfold PinRow.rule PinRule.ofTexts
  simp only [Outcome.bind_eq_ok_iff, Outcome.mapM_eq_ok_iff, Pin.read_eq_ok_iff]
  constructor
  · rintro ⟨pins, writes, ⟨⟩⟩
    exact ⟨rfl, writes⟩
  · obtain ⟨options, pins⟩ := rule
    rintro ⟨rfl, writes⟩
    exact ⟨pins, writes, rfl⟩

/-- A row feeds a variable from one source: an option, a constant, or triggers, among which that of
the shared build comes before the options. -/
inductive VariableRow.Feeds (row : VariableRow) : VariableSource → Prop
  | option {name : String} (stated : row.option = some name) (noValue : row.value = none)
    (noOptions : row.anyOf = []) (unshared : row.orShared = false) : Feeds row (.option name)
  | constant {value : Value} (noOption : row.option = none) (stated : row.value = some value)
    (noOptions : row.anyOf = []) (unshared : row.orShared = false) : Feeds row (.constant value)
  | anyOf (noOption : row.option = none) (noValue : row.value = none) (some : row.anyOf ≠ [])
    (unshared : row.orShared = false) : Feeds row (.anyOf (row.anyOf.map .option))
  | shared (noOption : row.option = none) (noValue : row.value = none)
    (shared : row.orShared = true) : Feeds row (.anyOf (.sharedBuild :: row.anyOf.map .option))

/-- A row stands for the rule with its names and the source that it feeds the variable from. -/
structure VariableRow.Makes (row : VariableRow) (rule : VariableRule) : Prop where
  name : rule.name = row.name
  source : row.Feeds rule.source
  driver : rule.driver = row.driver

namespace VariableRow

variable {row : VariableRow} {rule : VariableRule} {source : VariableSource}

theorem isComposite_eq_false_iff :
    row.isComposite = false ↔ row.anyOf = [] ∧ row.orShared = false := by
  simp [isComposite]

theorem source_eq_ok_iff : row.source = .ok source ↔ row.Feeds source := by
  unfold VariableRow.source
  constructor
  · intro fed
    split at fed
    next name stated noValue plain =>
      cases fed
      obtain ⟨noOptions, unshared⟩ := isComposite_eq_false_iff.1 plain
      exact .option stated noValue noOptions unshared
    next value noOption stated plain =>
      cases fed
      obtain ⟨noOptions, unshared⟩ := isComposite_eq_false_iff.1 plain
      exact .constant noOption stated noOptions unshared
    next noOption noValue composite =>
      cases fed
      unfold triggers
      cases linked : row.orShared with
      | true => exact .shared noOption noValue linked
      | false =>
        have some : row.anyOf ≠ [] := by simpa [isComposite, linked] using composite
        exact .anyOf noOption noValue some linked
    next => cases fed
  · intro feeds
    cases feeds with
    | option stated noValue noOptions unshared =>
      rw [stated, noValue, isComposite_eq_false_iff.2 ⟨noOptions, unshared⟩]
    | constant noOption stated noOptions unshared =>
      rw [noOption, stated, isComposite_eq_false_iff.2 ⟨noOptions, unshared⟩]
    | anyOf noOption noValue some unshared =>
      have composite : row.isComposite = true := by simp [isComposite, some]
      have listed : row.triggers = row.anyOf.map .option := by simp [triggers, unshared]
      rw [noOption, noValue, composite, listed]
    | shared noOption noValue shared =>
      have composite : row.isComposite = true := by simp [isComposite, shared]
      have listed : row.triggers = .sharedBuild :: row.anyOf.map .option := by
        simp [triggers, shared]
      rw [noOption, noValue, composite, listed]

theorem rule_eq_ok_iff : row.rule = .ok rule ↔ row.Makes rule := by
  unfold VariableRow.rule
  simp only [Outcome.bind_eq_ok_iff, source_eq_ok_iff]
  constructor
  · rintro ⟨source, feeds, ⟨⟩⟩
    exact ⟨rfl, feeds, rfl⟩
  · obtain ⟨name, source, driver⟩ := rule
    rintro ⟨rfl, feeds, rfl⟩
    exact ⟨source, feeds, rfl⟩

/-- A row states exactly one of the three kinds of source. -/
def Sound (row : VariableRow) : Prop :=
  [row.option.isSome, row.value.isSome, !row.anyOf.isEmpty || row.orShared].count true = 1

theorem Feeds.sound (feeds : row.Feeds source) : row.Sound := by
  unfold Sound
  cases feeds <;> simp [*]

end VariableRow

/-! ## Manifests -/

namespace Manifest

variable {m other : Manifest} {recipe : Recipe}

/-- Table by table, the rows of a manifest stand for the entries of a recipe, one to one and in
order. -/
structure Matches (m : Manifest) (recipe : Recipe) : Prop where
  options : List.Forall₂ OptionRow.Declares m.options recipe.catalog.declarations
  pruneRules : PruneRow.Fills m.prune recipe.pruneRules.optionRules recipe.pruneRules.platformRules
  pinRules : List.Forall₂ PinRow.Makes m.pins recipe.pinRules
  variableRules : List.Forall₂ VariableRow.Makes m.variableRows recipe.variableRules.rules
  lead : recipe.variableRules.lead = m.lead
  linkageOption : recipe.linkageOption = m.linkageOption

theorem pruneRules_eq_ok_iff {tables : PruneRules} : m.pruneRules = .ok tables ↔
    PruneRow.Fills m.prune tables.optionRules tables.platformRules := by
  refine PruneRow.addAll_eq_ok_iff.trans ?_
  constructor
  · rintro ⟨optionRules, platformRules, fills, rfl⟩
    exact fills
  · exact fun fills => ⟨_, _, fills, rfl⟩

/-- A manifest is assembled to the valid recipe that it matches, and refused if there is none. -/
theorem toRecipe_eq_ok_iff : m.toRecipe = .ok recipe ↔ recipe.Valid ∧ m.Matches recipe := by
  unfold toRecipe
  simp only [Outcome.bind_eq_ok_iff, pruneRules_eq_ok_iff, Outcome.mapM_eq_ok_iff,
    PinRow.rule_eq_ok_iff, VariableRow.rule_eq_ok_iff, Recipe.assemble_eq_ok_iff]
  constructor
  · rintro ⟨catalog, declared, tables, fills, pinRules, pins, rules, fed, rfl, checked⟩
    obtain ⟨⟨calls, built⟩, added, listed, each⟩ := Catalog.declares_of_rows declared
    cases listed
    exact ⟨.of_check built.symm checked, each, fills, pins, fed, rfl, rfl⟩
  · rintro ⟨valid, options, fills, pins, fed, lead, linkageOption⟩
    have wf := valid.wellFormed
    have declared : m.catalog = .ok recipe.catalog :=
      Catalog.rows_of_declares wf valid.parentsInFront Catalog.wellFormed_empty rfl options
    refine ⟨_, declared, _, fills, _, pins, _, fed, ?_, (Recipe.check_eq_ok_iff wf).2 valid.fits⟩
    rw [← lead, ← linkageOption]

/-- Two manifests differ at most in how the prune rows with a condition stand among those without:
the rows of each kind are the same, in the same order. -/
structure Interleaved (m other : Manifest) : Prop where
  rest : other = { m with prune := other.prune }
  conditioned : other.prune.filter (·.condition.isSome) = m.prune.filter (·.condition.isSome)
  unconditioned : other.prune.filter (·.condition.isNone) = m.prune.filter (·.condition.isNone)

theorem Interleaved.matches_iff (interleaved : m.Interleaved other) :
    other.Matches recipe ↔ m.Matches recipe := by
  obtain ⟨rest, conditioned, unconditioned⟩ := interleaved
  have fills : ∀ options platforms, PruneRow.Fills other.prune options platforms ↔
      PruneRow.Fills m.prune options platforms := fun options platforms =>
    ⟨fun fills => ⟨conditioned ▸ fills.optionRules, unconditioned ▸ fills.platformRules⟩,
      fun fills => ⟨conditioned ▸ fills.optionRules, unconditioned ▸ fills.platformRules⟩⟩
  rw [rest]
  exact ⟨fun ⟨options, tables, pins, fed, lead, linkage⟩ =>
      ⟨options, (fills _ _).1 tables, pins, fed, lead, linkage⟩,
    fun ⟨options, tables, pins, fed, lead, linkage⟩ =>
      ⟨options, (fills _ _).2 tables, pins, fed, lead, linkage⟩⟩

theorem Interleaved.toRecipe_eq_ok_iff (interleaved : m.Interleaved other) :
    other.toRecipe = .ok recipe ↔ m.toRecipe = .ok recipe := by
  rw [Manifest.toRecipe_eq_ok_iff, Manifest.toRecipe_eq_ok_iff, interleaved.matches_iff]

theorem Matches.sound (matched : m.Matches recipe) :
    (∀ row ∈ m.prune, row.Sound) ∧ ∀ row ∈ m.variableRows, row.Sound := by
  refine ⟨matched.pruneRules.sound, ?_⟩
  exact ((List.forall₂_and_left _ _).1
    (matched.variableRules.imp fun row rule makes => ⟨makes.source.sound, makes⟩)).1

/-- A manifest is assembled faithfully. What is made of it is the valid recipe that its rows stand
for, table by table, one to one and in order. So how the prune rows of the two kinds are interleaved
makes no difference to the recipe, or to whether there is one; and a manifest is refused if a prune
row has not exactly one action, or mixes a condition with a part of a platform, or if a variable has
not exactly one kind of source. -/
theorem toRecipe_faithful (m : Manifest) :
    (∀ recipe, m.toRecipe = .ok recipe ↔ recipe.Valid ∧ m.Matches recipe) ∧
    (∀ other, m.Interleaved other →
      (∃ recipe, m.toRecipe = .ok recipe ∧ other.toRecipe = .ok recipe) ∨
        (∃ fault, m.toRecipe = .error fault) ∧ ∃ fault, other.toRecipe = .error fault) ∧
    ∀ recipe, m.toRecipe = .ok recipe →
      (∀ row ∈ m.prune, row.Sound) ∧ ∀ row ∈ m.variableRows, row.Sound := by
  refine ⟨fun recipe => toRecipe_eq_ok_iff, fun other interleaved => ?_,
    fun recipe made => (toRecipe_eq_ok_iff.1 made).2.sound⟩
  cases made : m.toRecipe with
  | ok recipe => exact .inl ⟨recipe, rfl, interleaved.toRecipe_eq_ok_iff.2 made⟩
  | error fault =>
    refine .inr ⟨⟨fault, rfl⟩, Outcome.exists_error_of_ne_ok fun recipe madeToo => ?_⟩
    cases made.symm.trans (interleaved.toRecipe_eq_ok_iff.1 madeToo)

/-- A manifest with a rule on an option between two rules on the platform, and a variable with both
kinds of triggers. -/
def viewer : Manifest where
  lead := "VIEWER_"
  options := [⟨"shared", .flag false, none, none⟩,
    ⟨"renderer", .text "gl", some ["gl", "vulkan"], none⟩, ⟨"with_ui", .flag true, none, none⟩,
    ⟨"with_menus", .flag true, none, some "with_ui"⟩]
  prune := [{ target := { os := [.windows] }, remove := some "with_menus" },
    { condition := some ⟨"shared", .flag true⟩, remove := some "with_ui" },
    { target := { os := [.macos] }, force := some ⟨"renderer", .text "vulkan"⟩ }]
  pins := [⟨["with_ui"], [" imgui/1.89 "]⟩]
  variableRows := [⟨"ui", none, none, ["with_ui"], true, none⟩,
    ⟨"renderer", some "renderer", none, [], false, some "RENDERER"⟩]

/-- The recipe of `viewer`, which stays the same if the rule on the option is listed first. A third
variable with a constant besides its option is refused. -/
theorem toRecipe_faithful_viewer :
    let other : Manifest := { viewer with prune :=
      [{ condition := some ⟨"shared", .flag true⟩, remove := some "with_ui" },
        { target := { os := [.windows] }, remove := some "with_menus" },
        { target := { os := [.macos] }, force := some ⟨"renderer", .text "vulkan"⟩ }] }
    let recipe : Recipe :=
      { catalog := .ofCalls [.flag "shared" false,
          ⟨"renderer", .enumeration ["gl", "vulkan"], .text "gl", none⟩, .flag "with_ui" true,
          .flag "with_menus" true (some "with_ui")]
        pruneRules := ⟨[⟨⟨"shared", .flag true⟩, .remove "with_ui"⟩],
          [⟨{ os := [.windows] }, .remove "with_menus"⟩,
            ⟨{ os := [.macos] }, .force ⟨"renderer", .text "vulkan"⟩⟩]⟩
        pinRules := [⟨["with_ui"], [⟨"imgui", "1.89"⟩]⟩]
        variableRules := ⟨"VIEWER_", [⟨"ui", .anyOf [.sharedBuild, .option "with_ui"], none⟩,
          ⟨"renderer", .option "renderer", some "RENDERER"⟩]⟩
        linkageOption := "shared" }
    viewer.toRecipe = .ok recipe ∧ recipe.Valid ∧ viewer.Matches recipe ∧
      (∀ row ∈ viewer.prune, row.Sound) ∧ (∀ row ∈ viewer.variableRows, row.Sound) ∧
      viewer.Interleaved other ∧ other.toRecipe = .ok recipe ∧
      ∀ recipe, { viewer with variableRows :=
        [⟨"ui", some "with_ui", some (.flag true), [], false, none⟩] }.toRecipe ≠ .ok recipe := by
  intro other recipe
  have made : viewer.toRecipe = .ok recipe := by decide +kernel
  have interleaved : viewer.Interleaved other := ⟨rfl, rfl, rfl⟩
  obtain ⟨exact_iff, same, sound⟩ := toRecipe_faithful viewer
  obtain ⟨valid, matched⟩ := (exact_iff recipe).1 made
  refine ⟨made, valid, matched, (sound recipe made).1, (sound recipe made).2, interleaved, ?_,
    fun recipe mixed => ?_⟩
  · rcases same other interleaved with ⟨shared, madeShared, madeOther⟩ | ⟨⟨fault, refused⟩, -⟩
    · cases made.symm.trans madeShared
      exact madeOther
    · cases made.symm.trans refused
  · obtain ⟨-, -, sound⟩ := toRecipe_faithful { viewer with variableRows :=
      [⟨"ui", some "with_ui", some (.flag true), [], false, none⟩] }
    have one := (sound recipe mixed).2 _ List.mem_cons_self
    unfold VariableRow.Sound at one
    exact absurd one (by decide)

end Manifest

end PackageConfig
