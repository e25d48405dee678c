import PackageConfig.Proofs.Recipe.Totality

/-!
What a resolution tells the build driver.

Every rule on variables makes one variable, whatever was removed, and its value is a true report
of the source of the rule in the final configuration (`VariableSource.Reports`). A valid recipe
emits such a table after every request that it accepts, also where the pins then conflict, and
every resolution carries it (`emission_faithful`). The linkage is read off the same configuration,
so that a variable fed by a boolean linkage option never contradicts it.
-/

namespace PackageConfig

variable {config : Configuration} {linkage : Linkage}

/-! ## One variable -/

namespace VariableSource

variable {source : VariableSource}

/-- A value is a true report of a source: the constant; the value of the option, or `false` where
the option was removed; or whether the build is shared and this is a trigger, or some option among
the triggers is enabled. -/
def Reports (config : Configuration) (linkage : Linkage) : VariableSource → Value → Prop
  | .constant fixed, value => value = fixed
  | .option name, value =>
    (∃ held, config.get? name = some (.present held) ∧ value = held) ∨
      ∃ cause, config.get? name = some (.absent cause) ∧ value = .flag false
  | .anyOf triggers, value => ∃ on, value = .flag on ∧
      (on = true ↔ linkage = .shared ∧ .sharedBuild ∈ triggers ∨
        ∃ name, .option name ∈ triggers ∧ config.isEnabled name = true)

theorem any_holds_iff {triggers : List Trigger} :
    triggers.any (Trigger.holds config linkage) = true ↔
      linkage = .shared ∧ .sharedBuild ∈ triggers ∨
        ∃ name, .option name ∈ triggers ∧ config.isEnabled name = true := by
  rw [List.any_eq_true]
  constructor
  · intro holding
    rcases holding with ⟨name | _, mem, holds⟩
    · exact .inr ⟨name, mem, holds⟩
    · cases linkage with
      | static => cases holds
      | shared => exact .inl ⟨rfl, mem⟩
  · intro holding
    rcases holding with ⟨rfl, mem⟩ | ⟨name, mem, enabled⟩
    · exact ⟨_, mem, rfl⟩
    · exact ⟨_, mem, enabled⟩

/-- In a configuration that knows its options, a source is read as what it truly is. -/
theorem reports_reading
    (known : ∀ option ∈ source.options, ∃ state, config.get? option = some state) :
    source.Reports config linkage (source.reading config linkage) := by
  cases source with
  | constant fixed => exact rfl
  | option name =>
    obtain ⟨state, held⟩ := known name List.mem_cons_self
    rw [reading, held]
    cases state with
    | present value => exact .inl ⟨value, held, rfl⟩
    | absent cause => exact .inr ⟨cause, held, rfl⟩
  | anyOf triggers => exact ⟨_, rfl, any_holds_iff⟩

/-- A boolean option is read as whether it is enabled. -/
theorem reading_of_boolean {c : Catalog} {name : String} {d : Declaration}
    (described : c.Describes config) (found : c.find? name = some d)
    (boolean : d.domain = .boolean) :
    (VariableSource.option name).reading config linkage = .flag (config.isEnabled name) := by
  rw [reading, Configuration.isEnabled]
  cases held : config.get? name with
  | none => rfl
  | some state =>
    cases state with
    | absent cause => rfl
    | present value =>
      obtain ⟨other, same, contained⟩ := described.admitted name value held
      cases found.symm.trans same
      rw [boolean] at contained
      cases value with
      | flag on => rfl
      | text s => cases contained

end VariableSource

/-! ## The linkage -/

namespace Linkage

theorem selectedBy_eq_shared_iff {option : String} :
    selectedBy config option = shared ↔ config.isEnabled option = true := by
  unfold selectedBy
  cases config.isEnabled option <;> simp

theorem isShared_selectedBy (config : Configuration) (option : String) :
    (selectedBy config option).isShared = config.isEnabled option := by
  unfold selectedBy
  cases config.isEnabled option <;> rfl

end Linkage

/-! ## The table -/

namespace Recipe

variable {recipe : Recipe} {start : Configuration} {request : Request}

/-- A table and a linkage are what a recipe has to emit for a final configuration: one variable
for each rule and no other, each a true report of its source, and a shared build exactly where the
linkage option is enabled; so that a variable fed by that option, if it is boolean, equals the
linkage. -/
structure Emits (recipe : Recipe) (config : Configuration) (linkage : Linkage)
    (table : Variables) : Prop where
  names_perm : table.names.Perm (recipe.variableRules.rules.map VariableRule.name)
  reported : ∀ rule ∈ recipe.variableRules.rules, ∃ value,
    table.get? rule.name = some value ∧ rule.source.Reports config linkage value
  shared_iff : linkage = .shared ↔ config.isEnabled recipe.linkageOption = true
  linkage_reported : ∀ d, recipe.catalog.find? recipe.linkageOption = some d →
    d.domain = .boolean → ∀ rule ∈ recipe.variableRules.rules,
      rule.source = .option recipe.linkageOption →
        table.get? rule.name = some (.flag linkage.isShared)

theorem Valid.emits_settle (valid : recipe.Valid)
    (accepted : recipe.catalog.start request = .ok start) (p : Platform) :
    let config := recipe.settle p start
    let linkage := Linkage.selectedBy config recipe.linkageOption
    recipe.Emits config linkage
      (VariableRules.readings recipe.variableRules.rules config linkage) := by
  intro config linkage
  have described : recipe.catalog.Describes config := describes_settle valid accepted p
  have table := valid.fits.variableRules
  refine ⟨VariableRules.names_readings_perm table.names_nodup config linkage,
    fun rule mem => ?_, Linkage.selectedBy_eq_shared_iff, fun d found boolean rule mem fed => ?_⟩
  · have known : ∀ option ∈ rule.source.options, ∃ state, config.get? option = some state :=
      fun option read => described.exists_get? (table.declared rule mem option read)
    exact ⟨_, VariableRules.get?_readings table.names_nodup mem config linkage,
      VariableSource.reports_reading known⟩
  · rw [VariableRules.get?_readings table.names_nodup mem, fed,
      VariableSource.reading_of_boolean described found boolean, Linkage.isShared_selectedBy]

/-- A valid recipe emits its variables truly. After every request that it accepts, the final
configuration, the linkage and the table of variables are all there, and every resolution holds
what has to be emitted for the configuration that the request is resolved to. -/
theorem emission_faithful (valid : recipe.Valid) (p : Platform) (request : Request) :
    (∀ start, recipe.catalog.start request = .ok start → ∃ config linkage table,
        recipe.configure p request = .ok config ∧
        Linkage.ofOption config recipe.linkageOption = .ok linkage ∧
        recipe.variableRules.table config linkage = .ok table ∧
        recipe.Emits config linkage table) ∧
      ∀ r, recipe.resolve p request = .ok r →
        recipe.configure p request = .ok r.config ∧
        recipe.Emits r.config r.linkage r.table := by
  constructor
  · intro start accepted
    have fits := valid.fits
    have described := describes_settle valid accepted p
    have linkage := Linkage.ofOption_eq_ok (described.exists_get? fits.linkageOption)
    have table : recipe.variableRules.table (recipe.settle p start)
        (Linkage.selectedBy (recipe.settle p start) recipe.linkageOption) = .ok _ :=
      VariableRules.table_eq_ok fun rule mem option read =>
        described.exists_get? (fits.variableRules.declared rule mem option read)
    exact ⟨_, _, _, configure_eq_ok_iff.2 ⟨start, accepted, rfl⟩, linkage, table,
      valid.emits_settle accepted p⟩
  · intro r resolved
    cases started : recipe.catalog.start request with
    | error fault =>
      rw [resolve_of_refused started] at resolved
      cases resolved
    | ok start =>
      rw [valid.resolve_of_accepted started] at resolved
      -- The pins decide whether there is a resolution, and no other field of it.
      cases pinned : PinSet.empty.insertAll
          (PinSet.required recipe.pinRules (recipe.settle p start)) with
      | error fault =>
        rw [pinned] at resolved
        cases resolved
      | ok set =>
        rw [pinned] at resolved
        cases resolved
        exact ⟨configure_eq_ok_iff.2 ⟨start, started, rfl⟩, valid.emits_settle started p⟩

/-- In a shared build on Linux the variable of the removed option is there and `false`, and the
composite holds for the linkage, though the option among its triggers is removed. -/
theorem emission_faithful_layered :
    let p : Platform := ⟨.linux, .gcc, .x86_64⟩
    let request : Request := .ofList [("shared", .flag true)]
    layeredOutputs.Valid ∧
      ∃ r, layeredOutputs.resolve p request = .ok r ∧
        r.linkage = .shared ∧
        r.table.names.Perm ["with_gui", "pic"] ∧
        r.table.get? "with_gui" = some (.flag false) ∧
        r.table.get? "pic" = some (.flag true) := by
  intro p request
  let start := layeredStates (.present (.flag true)) (.present (.flag true))
    (.present (.flag true))
  let config := layeredStates (.absent (.optionRule "remove fPIC when shared=true"))
    (.absent (.platformRule "remove gui when os=linux")) (.absent (.parent "gui"))
  have settled : layeredOutputs.settle p start = config := by
    have pruned : layeredOutputs.pruneRules.run p start = layeredStates
        (.absent (.optionRule "remove fPIC when shared=true"))
        (.absent (.platformRule "remove gui when os=linux")) (.present (.flag true)) := by decide
    rw [settle, pruned, Catalog.close_of_orphans_ne_nil (by decide)]
    exact Catalog.close_of_orphans_nil (by decide)
  have accepted : layeredOutputs.catalog.start request = .ok start := rfl
  have resolved : ∃ r, layeredOutputs.resolve p request = .ok r := by
    rw [layeredOutputs_valid.resolve_of_accepted accepted p, settled]
    exact ⟨_, rfl⟩
  obtain ⟨r, resolved⟩ := resolved
  obtain ⟨configured, emits⟩ := (emission_faithful layeredOutputs_valid p request).2 r resolved
  have final : r.config = config :=
    Except.ok.inj (configured.symm.trans (configure_eq_ok_iff.2 ⟨start, accepted, settled⟩))
  have shared : r.linkage = .shared := by
    apply emits.shared_iff.2
    rw [final]
    rfl
  refine ⟨layeredOutputs_valid, r, resolved, shared, emits.names_perm, ?_, ?_⟩
  · obtain ⟨value, listed, ⟨held, present, -⟩ | ⟨cause, -, rfl⟩⟩ :=
      emits.reported ⟨"with_gui", .option "gui", none⟩ (by decide)
    · rw [final] at present
      cases present
    · exact listed
  · obtain ⟨value, listed, on, rfl, on_iff⟩ :=
      emits.reported ⟨"pic", .anyOf [.sharedBuild, .option "fPIC"], none⟩ (by decide)
    rw [on_iff.2 (.inl ⟨shared, by decide⟩)] at listed
    exact listed

end Recipe

end PackageConfig
