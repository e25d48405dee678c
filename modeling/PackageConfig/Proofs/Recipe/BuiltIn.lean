import PackageConfig.Recipe.BuiltIn
import PackageConfig.Proofs.Options.Switches
import PackageConfig.Proofs.Recipe.Totality

/-!
What the built-in recipe does with a request.

Its options are switches, so that a request that is accepted comes down to one bit for each option.
No rule forces a value and only two options have a parent. So the rules and the closing decide
about each option on its own: it is removed for a shared build, for the platform, or for its
parent, or else it is present as it is wanted (`get?_settle`). No two rows of the table of pins
name one component, so no pins conflict. The pins and the variables are read off that.
-/

namespace PackageConfig

namespace Recipe.BuiltIn

variable {p : Platform} {request : Request} {start : Configuration} {name : String}
  {wanted : String → Bool}

/-! ## The recipe -/

/-- The built-in recipe, put together. -/
def recipe : Recipe where
  catalog := .ofCalls declarations
  pruneRules := pruneRules
  pinRules := pinRules
  variableRules := variableRules
  linkageOption := linkageOption

/-- Every declaration is accepted. -/
theorem declare_declarations :
    declarations.foldlM Catalog.declare .empty = .ok (.ofCalls declarations) := by
  decide +kernel

theorem check_recipe : recipe.check = .ok () := by decide +kernel

theorem builtIn_eq_ok : Recipe.builtIn = .ok recipe := by
  have assembled : assemble (.ofCalls declarations) pruneRules pinRules variableRules
      linkageOption = .ok recipe := assemble_eq_ok_iff.2 ⟨by rw [recipe], check_recipe⟩
  exact Outcome.bind_eq_ok_iff.2 ⟨_, declare_declarations, assembled⟩

theorem valid_recipe : recipe.Valid := by
  have built : recipe.catalog = .ofCalls declarations := by rw [recipe]
  exact .of_check built check_recipe

/-- The catalog lists the declarations as they were made. -/
theorem declarations_recipe : recipe.catalog.declarations = declarations := by decide +kernel

theorem declares_iff : recipe.catalog.declares name = true ↔ ∃ d ∈ declarations, d.name = name := by
  rw [valid_recipe.wellFormed.declares_iff, declarations_recipe]

theorem declares_of_mem (mem : name ∈ declarations.map Declaration.name) :
    recipe.catalog.declares name = true :=
  declares_iff.2 (List.mem_map.1 mem)

theorem switches_recipe : recipe.catalog.Switches := by
  unfold Catalog.Switches
  rw [declarations_recipe]
  decide +kernel

theorem parent_of_mem : ∀ d ∈ declarations,
    d.parent = if d.name ∈ backends.2 then some "with_platform" else none := by
  decide +kernel

/-- Only the back ends of a component have a parent. -/
theorem parent?_recipe (declared : recipe.catalog.declares name = true) :
    recipe.catalog.parent? name =
      if name ∈ backends.2 then some "with_platform" else none := by
  obtain ⟨d, found⟩ := valid_recipe.wellFormed.exists_find?_iff.2 declared
  obtain ⟨mem, rfl⟩ := valid_recipe.wellFormed.find?_eq_some_iff.1 found
  unfold Catalog.parent?
  rw [found, ← parent_of_mem d (declarations_recipe ▸ mem)]
  rfl

/-! ## The rules -/

/-- An option does not exist on a platform. -/
def Excluded (p : Platform) (name : String) : Prop :=
  name = "fPIC" ∧ p.os = .windows ∨
    name = "with_vulkan" ∧ (p.os = .macos ∨ p.os = .ios ∨ p.os = .emscripten) ∨
    name = "with_serial" ∧ (p.os = .ios ∨ p.os = .android ∨ p.os = .emscripten) ∨
    name = "with_plugins" ∧ p.os = .emscripten

theorem excludeOn_holds (os : List Os) (option : String) (p : Platform) :
    (excludeOn os option).condition.holds p = (os.isEmpty || os.contains p.os) := by
  simp [excludeOn, PlatformFilter.holds, PlatformFilter.accepts]

theorem platformRemoval?_isSome_iff :
    (pruneRules.platformRemoval? p name).isSome = true ↔ Excluded p name := by
  rw [PruneRules.platformRemoval?_isSome_iff]
  simp only [pruneRules, List.exists_mem_cons_iff, excludeOn_holds]
  simp [excludeOn, Excluded, and_comm, eq_comm (b := name)]

/-- Every declared option is present, and on as it is wanted. -/
def Starts (wanted : String → Bool) (start : Configuration) : Prop :=
  ∀ name, recipe.catalog.declares name = true →
    start.get? name = some (.present (.flag (wanted name)))

/-- What the rules make of an option. -/
def pruned (p : Platform) (wanted : String → Bool) (name : String) : State :=
  if name = "fPIC" ∧ wanted "shared" = true then
    .absent (.optionRule "remove fPIC when shared=true")
  else
    match pruneRules.platformRemoval? p name with
    | some rule => .absent (.platformRule rule.describe)
    | none => .present (.flag (wanted name))

theorem get?_runOptionRules (config : Configuration) (name : String) :
    (pruneRules.runOptionRules config).get? name =
      if name = "fPIC" ∧ config.get? "shared" = some (.present (.flag true)) then
        (config.get? name).map (State.remove (.optionRule "remove fPIC when shared=true"))
      else config.get? name := by
  have single : pruneRules.runOptionRules config =
      if config.get? "shared" == some (.present (.flag true)) then
        config.remove "fPIC" (.optionRule "remove fPIC when shared=true")
      else config := rfl
  rw [single]
  by_cases shared : config.get? "shared" = some (.present (.flag true))
  · simp [shared, Configuration.get?_remove, eq_comm]
  · simp [shared]

/-- The rules decide about every option by its own bit, that of the linkage and the platform. -/
theorem get?_run (p : Platform) (given : Starts wanted start)
    (declared : recipe.catalog.declares name = true) :
    (pruneRules.run p start).get? name = some (pruned p wanted name) := by
  have shared : recipe.catalog.declares "shared" = true :=
    declares_of_mem (by decide +kernel)
  have removals : ∀ rule ∈ pruneRules.platformRules, rule.action.forced? = none := by
    simp [pruneRules, excludeOn, PruneAction.forced?]
  have stated := get?_runOptionRules start name
  rw [given name declared, given "shared" shared] at stated
  simp only [Option.some.injEq, State.present.injEq, Value.flag.injEq] at stated
  unfold PruneRules.run
  rw [PruneRules.get?_runPlatformRules, stated]
  unfold pruned
  split
  · rfl
  · exact congrArg some (PruneRules.platformState_of_removals removals p name _)

/-! ## The closing -/

theorem pruned_of_not_excluded (other : name ≠ "fPIC") (spared : ¬Excluded p name) :
    pruned p wanted name = .present (.flag (wanted name)) := by
  have kept : pruneRules.platformRemoval? p name = none := by
    rw [← Option.not_isSome_iff_eq_none, platformRemoval?_isSome_iff]
    exact spared
  rw [pruned, if_neg fun both => other both.1, kept]

theorem pruned_of_backend (backend : name ∈ backends.2) :
    pruned p wanted name = .present (.flag (wanted name)) := by
  have named : name = "with_platform_glfw" ∨ name = "with_platform_sdl2" := by
    simpa [backends] using backend
  rcases named with rfl | rfl <;> exact pruned_of_not_excluded (by decide) (by simp [Excluded])

/-- What the rules and then the closing make of an option. -/
def settled (p : Platform) (wanted : String → Bool) (name : String) : State :=
  if name ∈ backends.2 ∧ wanted "with_platform" = false then .absent (.parent "with_platform")
  else pruned p wanted name

theorem get?_settle_of_top (p : Platform) (given : Starts wanted start)
    (declared : recipe.catalog.declares name = true) (other : name ∉ backends.2) :
    (recipe.settle p start).get? name = some (pruned p wanted name) := by
  have closure := valid_recipe.wellFormed.isClosure_close (recipe.pruneRules.run p start)
  have above := parent?_recipe declared
  rw [if_neg other] at above
  exact (closure.get?_of_top above).trans (get?_run p given declared)

theorem get?_settle_of_backend (p : Platform) (given : Starts wanted start)
    (declared : recipe.catalog.declares name = true) (backend : name ∈ backends.2) :
    (recipe.settle p start).get? name =
      if wanted "with_platform" = true then some (pruned p wanted name)
      else some (.absent (.parent "with_platform")) := by
  -- The component has no parent and no rule is about it, so that it is on as it is wanted.
  have component : recipe.catalog.declares "with_platform" = true :=
    declares_of_mem (by decide +kernel)
  have enabled : (recipe.settle p start).isEnabled "with_platform" = wanted "with_platform" := by
    rw [Configuration.isEnabled, get?_settle_of_top p given component (by decide),
      pruned_of_not_excluded (by decide) (by simp [Excluded])]
    rfl
  have closure := valid_recipe.wellFormed.isClosure_close (recipe.pruneRules.run p start)
  have above := parent?_recipe declared
  rw [if_pos backend] at above
  have held : (recipe.pruneRules.run p start).get? name = some (pruned p wanted name) :=
    get?_run p given declared
  have present : (recipe.pruneRules.run p start).isPresent name = true :=
    Configuration.isPresent_iff.2 ⟨_, held.trans (by rw [pruned_of_backend backend])⟩
  rw [← enabled, ← held]
  exact closure.get?_of_parent above present

/-- The closing decides about a back end by the bit of its component, and about nothing else. -/
theorem get?_settle (p : Platform) (given : Starts wanted start)
    (declared : recipe.catalog.declares name = true) :
    (recipe.settle p start).get? name = some (settled p wanted name) := by
  unfold settled
  by_cases backend : name ∈ backends.2
  · rw [get?_settle_of_backend p given declared backend]
    cases wanted "with_platform" <;> simp [backend]
  · rw [get?_settle_of_top p given declared backend, if_neg fun both => backend both.1]

/-! ## What is absent -/

/-- An option is removed for a shared build, for the platform, or for its parent. -/
def Removed (p : Platform) (wanted : String → Bool) (name : String) : Prop :=
  name = "fPIC" ∧ wanted "shared" = true ∨ Excluded p name ∨
    name ∈ backends.2 ∧ wanted "with_platform" = false

theorem settled_cases (p : Platform) (wanted : String → Bool) (name : String) :
    Removed p wanted name ∧ (∃ cause, settled p wanted name = .absent cause) ∨
      ¬Removed p wanted name ∧ settled p wanted name = .present (.flag (wanted name)) := by
  unfold settled
  by_cases gated : name ∈ backends.2 ∧ wanted "with_platform" = false
  · exact .inl ⟨.inr (.inr gated), _, if_pos gated⟩
  rw [if_neg gated, pruned]
  by_cases shared : name = "fPIC" ∧ wanted "shared" = true
  · exact .inl ⟨.inl shared, _, if_pos shared⟩
  rw [if_neg shared]
  cases removal : pruneRules.platformRemoval? p name with
  | some rule =>
    have excluded : Excluded p name := platformRemoval?_isSome_iff.1 (by rw [removal]; rfl)
    exact .inl ⟨.inr (.inl excluded), _, rfl⟩
  | none =>
    have spared : ¬Excluded p name := by
      rw [← platformRemoval?_isSome_iff, removal]
      exact Bool.false_ne_true
    exact .inr ⟨by simp only [Removed, shared, spared, gated, or_self, not_false_eq_true], rfl⟩

/-- Every declared option is settled. -/
def Settled (p : Platform) (wanted : String → Bool) (config : Configuration) : Prop :=
  ∀ name, recipe.catalog.declares name = true → config.get? name = some (settled p wanted name)

namespace Settled

variable {config : Configuration}

theorem isAbsent_iff (states : Settled p wanted config)
    (declared : recipe.catalog.declares name = true) :
    config.IsAbsent name ↔ Removed p wanted name := by
  unfold Configuration.IsAbsent
  rw [states name declared]
  rcases settled_cases p wanted name with ⟨removed, absent⟩ | ⟨kept, present⟩
  · simpa [removed] using absent
  · simp [kept, present]

theorem get?_of_not_removed (states : Settled p wanted config)
    (declared : recipe.catalog.declares name = true) (kept : ¬Removed p wanted name) :
    config.get? name = some (.present (.flag (wanted name))) := by
  rcases settled_cases p wanted name with ⟨removed, -⟩ | ⟨-, present⟩
  · exact absurd removed kept
  · rw [states name declared, present]

theorem isEnabled_iff (states : Settled p wanted config)
    (declared : recipe.catalog.declares name = true) :
    config.isEnabled name = true ↔ ¬Removed p wanted name ∧ wanted name = true := by
  unfold Configuration.isEnabled
  rw [states name declared]
  rcases settled_cases p wanted name with ⟨removed, cause, absent⟩ | ⟨kept, present⟩
  · simp [removed, absent, State.isEnabled]
  · simp [kept, present, State.isEnabled, Value.enabled]

end Settled

/-! ## What the tables say -/

/-- What the tables say of the options: which of them are absent on a platform, and why, where it
is known of each whether it is wanted. -/
structure TabledOptions (p : Platform) (wanted : String → Bool) (config : Configuration) :
    Prop where
  fPIC_absent_iff : config.IsAbsent "fPIC" ↔ wanted "shared" = true ∨ p.os = .windows
  fPIC_cause_iff : (∃ rule, config.get? "fPIC" = some (.absent (.optionRule rule))) ↔
    wanted "shared" = true
  vulkan_absent_iff : config.IsAbsent "with_vulkan" ↔
    p.os = .macos ∨ p.os = .ios ∨ p.os = .emscripten
  serial_absent_iff : config.IsAbsent "with_serial" ↔
    p.os = .ios ∨ p.os = .android ∨ p.os = .emscripten
  plugins_absent_iff : config.IsAbsent "with_plugins" ↔ p.os = .emscripten
  backend_absent_iff : ∀ backend ∈ ["with_platform_glfw", "with_platform_sdl2"],
    config.IsAbsent backend ↔ wanted "with_platform" = false
  backend_cause_iff : ∀ backend ∈ ["with_platform_glfw", "with_platform_sdl2"],
    config.get? backend = some (.absent (.parent "with_platform")) ↔
      wanted "with_platform" = false
  others_present : ∀ d ∈ declarations, d.name ∉ ["fPIC", "with_vulkan", "with_serial",
    "with_plugins", "with_platform_glfw", "with_platform_sdl2"] → ¬config.IsAbsent d.name
  value_wanted : ∀ d ∈ declarations, ¬config.IsAbsent d.name →
    config.get? d.name = some (.present (.flag (wanted d.name)))

theorem settled_fPIC : (∃ rule, settled p wanted "fPIC" = .absent (.optionRule rule)) ↔
    wanted "shared" = true := by
  have other : ¬("fPIC" ∈ backends.2 ∧ wanted "with_platform" = false) := by simp [backends]
  rw [settled, if_neg other, pruned]
  cases wanted "shared" with
  | true => simp
  | false =>
    rw [if_neg (by simp)]
    cases pruneRules.platformRemoval? p "fPIC" <;> simp

theorem settled_backend (backend : name ∈ backends.2) :
    settled p wanted name = .absent (.parent "with_platform") ↔ wanted "with_platform" = false := by
  rw [settled, pruned_of_backend backend]
  cases wanted "with_platform" <;> simp [backend]

theorem Settled.tabledOptions {config : Configuration} (states : Settled p wanted config) :
    TabledOptions p wanted config := by
  have absent_iff : ∀ name ∈ declarations.map Declaration.name,
      (config.IsAbsent name ↔ Removed p wanted name) :=
    fun name mem => states.isAbsent_iff (declares_of_mem mem)
  have backends_declared : ∀ backend ∈ backends.2, backend ∈ declarations.map Declaration.name := by
    decide +kernel
  refine ⟨?_, ?_, ?_, ?_, ?_, fun backend mem => ?_, fun backend mem => ?_, fun d mem others => ?_,
    fun d mem kept => ?_⟩
  · rw [absent_iff "fPIC" (by decide +kernel)]
    simp [Removed, Excluded, backends]
  · rw [states "fPIC" (declares_of_mem (by decide +kernel))]
    simp only [Option.some.injEq]
    exact settled_fPIC
  · rw [absent_iff "with_vulkan" (by decide +kernel)]
    simp [Removed, Excluded, backends]
  · rw [absent_iff "with_serial" (by decide +kernel)]
    simp [Removed, Excluded, backends]
  · rw [absent_iff "with_plugins" (by decide +kernel)]
    simp [Removed, Excluded, backends]
  · rw [absent_iff backend (backends_declared backend mem)]
    have named : backend = "with_platform_glfw" ∨ backend = "with_platform_sdl2" := by
      simpa using mem
    rcases named with rfl | rfl <;> simp [Removed, Excluded, backends]
  · rw [states backend (declares_of_mem (backends_declared backend mem)), Option.some.injEq]
    exact settled_backend mem
  · rw [absent_iff d.name (List.mem_map_of_mem mem)]
    simp only [List.mem_cons, List.not_mem_nil, or_false, not_or] at others
    simp [Removed, Excluded, backends, others]
  · have declared := declares_of_mem (List.mem_map_of_mem mem)
    exact states.get?_of_not_removed declared fun removed =>
      kept ((states.isAbsent_iff declared).2 removed)

/-! ## Pins -/

/-- What the table of pins says, of a configuration in which it is known of each switch whether
it is wanted: a component is required exactly when every option of its row is present and on, and
nothing else is. -/
structure TabledPins (wanted : String → Bool) (config : Configuration) (set : PinSet) : Prop where
  required_iff : ∀ rule ∈ pinRules, ∀ pin ∈ rule.pins, set.contains pin.name = true ↔
    ∀ option ∈ rule.options, ¬config.IsAbsent option ∧ wanted option = true
  has_iff : ∀ pin, set.Has pin ↔ ∃ rule ∈ pinRules, rule.Applies config ∧ pin ∈ rule.pins

/-- No two rows name one component. -/
theorem pin_unique : ∀ rule ∈ pinRules, ∀ pin ∈ rule.pins, ∀ other ∈ pinRules,
    ∀ pin' ∈ other.pins, pin'.name = pin.name → other = rule ∧ pin' = pin := by
  decide +kernel

theorem agree_required (config : Configuration) :
    Pin.Agree (· ∈ PinSet.required pinRules config) := by
  intro first second inFirst inSecond same
  obtain ⟨rule, mem, -, stands⟩ := PinSet.mem_required_iff.1 inFirst
  obtain ⟨other, otherMem, -, otherStands⟩ := PinSet.mem_required_iff.1 inSecond
  exact (pin_unique other otherMem second otherStands rule mem first stands same).2

/-- A component of a row is required exactly when the row applies. -/
theorem contains_iff {config : Configuration} {set : PinSet}
    (has : ∀ pin, set.Has pin ↔ pin ∈ PinSet.required pinRules config) {rule : PinRule}
    (mem : rule ∈ pinRules) {pin : Pin} (stands : pin ∈ rule.pins) :
    set.contains pin.name = true ↔ rule.Applies config := by
  constructor
  · intro pinned
    obtain ⟨found, held⟩ := Option.isSome_iff_exists.1 pinned
    have among := (has found).1 (PinSet.has_of_get? held)
    obtain ⟨other, otherMem, applies, otherStands⟩ := PinSet.mem_required_iff.1 among
    have named := PinSet.name_of_get? held
    obtain ⟨rfl, -⟩ := pin_unique rule mem pin stands other otherMem found otherStands named
    exact applies
  · intro applies
    have held := (has pin).2 (PinSet.mem_required_iff.2 ⟨rule, mem, applies, stands⟩)
    exact Option.isSome_of_eq_some held

theorem Settled.tabledPins {config : Configuration} {set : PinSet}
    (states : Settled p wanted config)
    (has : ∀ pin, set.Has pin ↔ pin ∈ PinSet.required pinRules config) :
    TabledPins wanted config set := by
  refine ⟨fun rule mem pin stands => ?_, fun pin => (has pin).trans PinSet.mem_required_iff⟩
  rw [contains_iff has mem stands]
  refine forall₂_congr fun option asked => ?_
  have declared := (valid_recipe.fits.pinRules rule mem).declared option asked
  rw [states.isEnabled_iff declared, states.isAbsent_iff declared]

/-! ## Variables -/

/-- What the table of variables says: one entry for each rule, on where the option of the rule is
present and wanted, and off where it is absent. -/
structure TabledVariables (p : Platform) (wanted : String → Bool) (config : Configuration)
    (table : Variables) : Prop where
  names_perm : table.names.Perm (variableRules.rules.map VariableRule.name)
  position_independent : table.get? "position_independent_code" =
    some (.flag (wanted "shared" || (p.os ≠ .windows && wanted "fPIC")))
  absent_off : ∀ rule ∈ variableRules.rules, ∀ option, rule.source = .option option →
    config.IsAbsent option → table.get? rule.name = some (.flag false)
  present_wanted : ∀ rule ∈ variableRules.rules, ∀ option, rule.source = .option option →
    ¬config.IsAbsent option → table.get? rule.name = some (.flag (wanted option))

theorem Settled.linkage_isShared {config : Configuration} (states : Settled p wanted config) :
    (Linkage.selectedBy config linkageOption).isShared = wanted "shared" := by
  have enabled : config.isEnabled "shared" = wanted "shared" := by
    rw [Bool.eq_iff_iff, states.isEnabled_iff (declares_of_mem (by decide +kernel))]
    simp [Removed, Excluded, backends]
  rw [Linkage.selectedBy, linkageOption, enabled]
  cases wanted "shared" <;> rfl

theorem Settled.tabledVariables {config : Configuration} (states : Settled p wanted config) :
    TabledVariables p wanted config
      (VariableRules.readings variableRules.rules config
        (Linkage.selectedBy config linkageOption)) := by
  have names : (variableRules.rules.map VariableRule.name).Nodup :=
    valid_recipe.fits.variableRules.names_nodup
  have read : ∀ rule ∈ variableRules.rules,
      (VariableRules.readings variableRules.rules config
        (Linkage.selectedBy config linkageOption)).get? rule.name =
          some (rule.source.reading config (Linkage.selectedBy config linkageOption)) :=
    fun rule mem => VariableRules.get?_readings names mem config _
  refine ⟨VariableRules.names_readings_perm names _ _, ?_,
    fun rule mem option source absent => ?_, fun rule mem option source present => ?_⟩
  · have mem : (⟨"position_independent_code", .anyOf [.sharedBuild, .option "fPIC"],
        some "CMAKE_POSITION_INDEPENDENT_CODE"⟩ : VariableRule) ∈ variableRules.rules := by
      decide +kernel
    have enabled : config.isEnabled "fPIC" =
        (!wanted "shared" && p.os ≠ .windows && wanted "fPIC") := by
      rw [Bool.eq_iff_iff, states.isEnabled_iff (declares_of_mem (by decide +kernel))]
      simp [Removed, Excluded, backends]
    refine (read _ mem).trans ?_
    simp only [VariableSource.reading, List.any_cons, List.any_nil, Trigger.holds,
      states.linkage_isShared, enabled, Bool.or_false]
    cases wanted "shared" <;> simp
  · obtain ⟨cause, held⟩ := absent
    rw [read rule mem, source, VariableSource.reading, held]
    rfl
  · have asked : option ∈ rule.source.options := by
      rw [source]
      exact List.mem_singleton_self option
    have declared := valid_recipe.fits.variableRules.declared rule mem option asked
    have kept : ¬Removed p wanted option := fun removed =>
      present ((states.isAbsent_iff declared).2 removed)
    rw [read rule mem, source, VariableSource.reading, states.get?_of_not_removed declared kept]
    rfl

/-! ## Every request -/

/-- A request names only declared options, and says of each on or off. -/
def Acceptable (request : Request) : Prop :=
  ∀ name given, request.get? name = some given →
    (∃ d ∈ declarations, d.name = name) ∧ given.switch?.isSome = true

theorem acceptable_iff :
    Acceptable request ↔ ∃ start, recipe.catalog.start request = .ok start := by
  rw [switches_recipe.exists_start_iff valid_recipe.wellFormed]
  simp only [Acceptable, declares_iff]

theorem settled_of_accepted (accepted : recipe.catalog.start request = .ok start) (p : Platform) :
    Settled p (recipe.catalog.wanted request) (recipe.settle p start) := by
  have given : Starts (recipe.catalog.wanted request) start := fun name declared =>
    switches_recipe.get?_start valid_recipe.wellFormed valid_recipe.defaultsFit accepted declared
  exact fun name declared => get?_settle p given declared

/-- The built-in recipe does what its tables say, for every request. It can be put together, and it
accepts exactly the requests that name declared options and say of each on or off. On every
platform it resolves each of these, to options, pins and variables that are as the tables say,
where a switch counts as wanted that the request turns on, or that is on by default and that
the request does not name. -/
theorem builtIn_as_tabled :
    Recipe.builtIn = .ok recipe ∧ ∀ request,
      (Acceptable request ↔ ∃ start, recipe.catalog.start request = .ok start) ∧
      (Acceptable request → ∀ p, ∃ r, recipe.resolve p request = .ok r ∧
        let wanted := recipe.catalog.wanted request
        r.platform = p ∧ r.linkage.isShared = wanted "shared" ∧
        TabledOptions p wanted r.config ∧ TabledPins wanted r.config r.pins ∧
        TabledVariables p wanted r.config r.table) := by
  refine ⟨builtIn_eq_ok, fun request => ⟨acceptable_iff, fun acceptable p => ?_⟩⟩
  obtain ⟨start, accepted⟩ := acceptable_iff.1 acceptable
  have states := settled_of_accepted accepted p
  have resolved := valid_recipe.resolve_of_accepted accepted p
  obtain ⟨set, added, -, has⟩ | ⟨first, second, -, disagree⟩ :=
    PinSet.insertAll_empty_cases (PinSet.required pinRules (recipe.settle p start))
  · refine ⟨recipe.outcome p (recipe.settle p start) set, resolved.trans ?_, rfl,
      states.linkage_isShared, states.tabledOptions, states.tabledPins has,
      states.tabledVariables⟩
    exact congrArg (Except.map _) added
  · exact absurd (agree_required _) disagree

/-- A shared build for Windows without the platform component, asked for in other letters and
between blanks. -/
def sharedWithoutPlatform : Request :=
  .ofList [("shared", .text " TRUE "), ("with_platform", .flag false)]

/-- The back ends are gone with their component, and `fPIC` for the shared build, which is
position independent all the same. -/
theorem builtIn_as_tabled_shared :
    let windows : Platform := ⟨.windows, .msvc, .x86_64⟩
    Acceptable sharedWithoutPlatform ∧
      ∃ r, recipe.resolve windows sharedWithoutPlatform = .ok r ∧
        r.config.get? "with_platform_glfw" = some (.absent (.parent "with_platform")) ∧
        (∃ rule, r.config.get? "fPIC" = some (.absent (.optionRule rule))) ∧
        r.table.get? "position_independent_code" = some (.flag true) := by
  intro windows
  have asked : sharedWithoutPlatform.get? "shared" = some (.text " TRUE ") := rfl
  have refused : sharedWithoutPlatform.get? "with_platform" = some (.flag false) := rfl
  have spelled : Text.lowerAscii (Text.trim " TRUE ") = Text.lowerAscii "true" := by
    simp only [Text.lowerAscii, ← String.toList_inj, String.toList_map, Text.toList_trim]
    decide
  have meant : (Value.text " TRUE ").switch? = some true := by
    rw [Value.switch?, Text.sameWord, spelled, beq_self_eq_true, if_pos rfl]
  have acceptable : Acceptable sharedWithoutPlatform := by
    intro name given named
    have entries : sharedWithoutPlatform.entries =
        [("shared", .text " TRUE "), ("with_platform", .flag false)] := rfl
    rw [NameMap.get?_eq_some_iff, entries] at named
    simp only [List.mem_cons, Prod.mk.injEq, List.not_mem_nil, or_false] at named
    rcases named with ⟨rfl, rfl⟩ | ⟨rfl, rfl⟩
    · exact ⟨by decide +kernel, by rw [meant]; rfl⟩
    · exact ⟨by decide +kernel, rfl⟩
  have shared : recipe.catalog.wanted sharedWithoutPlatform "shared" = true := by
    rw [Catalog.wanted, asked]
    simp [meant]
  have platform : recipe.catalog.wanted sharedWithoutPlatform "with_platform" = false := by
    rw [Catalog.wanted, refused]
    rfl
  obtain ⟨r, resolved, -, -, options, -, table⟩ :=
    (builtIn_as_tabled.2 sharedWithoutPlatform).2 acceptable windows
  have reported := table.position_independent
  rw [shared, Bool.true_or] at reported
  exact ⟨acceptable, r, resolved,
    (options.backend_cause_iff "with_platform_glfw" (by decide)).2 platform,
    options.fPIC_cause_iff.2 shared, reported⟩

end Recipe.BuiltIn

end PackageConfig
