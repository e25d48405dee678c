import PackageConfig.Resolution
import PackageConfig.Proofs.Recipe.Phases
import PackageConfig.Proofs.Rules.Explanation
import PackageConfig.Proofs.Rules.Pin

/-!
What a valid recipe does with a request.

A request that is refused is refused with the fault of the first name it should not have, and
nothing else is tried (`resolve_of_refused`). After one that is accepted every option that a
rule asks for is known, so that the linkage, the variables and the question which pins are
required have an answer, and only the pins can still conflict (`Valid.resolve_of_accepted`). They
do exactly when two of the rules that apply clash (`Valid.conflict_iff_clash`).
-/

namespace PackageConfig

variable {config : Configuration}

/-- The linkage that an option selects, in a configuration that knows it. -/
def Linkage.selectedBy (config : Configuration) (option : String) : Linkage :=
  if config.isEnabled option then shared else static

theorem Linkage.ofOption_eq_ok {option : String}
    (known : ∃ state, config.get? option = some state) :
    Linkage.ofOption config option = .ok (Linkage.selectedBy config option) := by
  unfold Linkage.ofOption Linkage.selectedBy
  rw [Configuration.enabled_eq_ok known]
  cases config.isEnabled option <;> rfl

namespace Recipe

variable {recipe : Recipe} {start : Configuration} {request : Request}

/-- The resolution with given pins that a recipe makes of a final configuration. -/
def outcome (recipe : Recipe) (p : Platform) (config : Configuration) (pins : PinSet) :
    Resolution :=
  let linkage := Linkage.selectedBy config recipe.linkageOption
  ⟨p, linkage, config, pins, VariableRules.readings recipe.variableRules.rules config linkage⟩

theorem resolve_of_refused {fault : Fault} (refused : recipe.catalog.start request = .error fault)
    (p : Platform) : recipe.resolve p request = .error fault := by
  unfold resolve configure
  rw [refused]
  rfl

/-- After a request was accepted only the required pins can conflict; where they do not, the
resolution is made of the configuration that the rules and the closing end in. -/
theorem Valid.resolve_of_accepted (valid : recipe.Valid)
    (accepted : recipe.catalog.start request = .ok start) (p : Platform) :
    recipe.resolve p request =
      (PinSet.empty.insertAll (PinSet.required recipe.pinRules (recipe.settle p start))).map
        (recipe.outcome p (recipe.settle p start)) := by
  have fits := valid.fits
  have described := describes_settle valid accepted p
  have linkage := Linkage.ofOption_eq_ok (described.exists_get? fits.linkageOption)
  have pins : PinSet.ofRules recipe.pinRules (recipe.settle p start) =
      PinSet.empty.insertAll (PinSet.required recipe.pinRules (recipe.settle p start)) :=
    PinSet.ofRules_eq_insertAll fun rule mem option asked =>
      described.exists_get? ((fits.pinRules rule mem).declared option asked)
  have table : ∀ linkage, recipe.variableRules.table (recipe.settle p start) linkage =
      .ok (VariableRules.readings recipe.variableRules.rules (recipe.settle p start) linkage) :=
    fun linkage => VariableRules.table_eq_ok fun rule mem option read =>
      described.exists_get? (fits.variableRules.declared rule mem option read)
  unfold resolve
  rw [configure_eq_ok_iff.2 ⟨start, accepted, rfl⟩]
  simp only [bind, Except.bind, linkage, pins, table]
  cases PinSet.empty.insertAll (PinSet.required recipe.pinRules (recipe.settle p start)) with
  | error fault => rfl
  | ok set => rfl

/-- A resolution is made of the configuration that an accepted request is settled to, and of some
pins. -/
theorem Valid.exists_outcome (valid : recipe.Valid) {p : Platform} {r : Resolution}
    (resolved : recipe.resolve p request = .ok r) :
    ∃ start pins, recipe.catalog.start request = .ok start ∧
      r = recipe.outcome p (recipe.settle p start) pins := by
  cases started : recipe.catalog.start request with
  | error fault =>
    rw [resolve_of_refused started] at resolved
    cases resolved
  | ok start =>
    rw [valid.resolve_of_accepted started] at resolved
    cases pinned : PinSet.empty.insertAll
        (PinSet.required recipe.pinRules (recipe.settle p start)) with
    | error fault =>
      rw [pinned] at resolved
      cases resolved
    | ok set =>
      rw [pinned] at resolved
      cases resolved
      exact ⟨start, set, rfl, rfl⟩

/-- A request that is accepted is resolved, or two of the required pins conflict. -/
theorem Valid.resolved_or_conflict (valid : recipe.Valid)
    (accepted : recipe.catalog.start request = .ok start) (p : Platform) :
    (∃ r, recipe.resolve p request = .ok r) ∨
      ∃ first second, recipe.resolve p request = .error (.pinConflict first second) := by
  rw [valid.resolve_of_accepted accepted p]
  rcases PinSet.insertAll_empty_cases (PinSet.required recipe.pinRules (recipe.settle p start))
    with ⟨set, added, -⟩ | ⟨first, second, refused, -⟩
  · rw [added]
    exact .inl ⟨_, rfl⟩
  · rw [refused]
    exact .inr ⟨first, second, rfl⟩

/-- A resolution of an accepted request fails exactly when two rules on pins that apply to the
final configuration clash. -/
theorem Valid.conflict_iff_clash (valid : recipe.Valid)
    (accepted : recipe.catalog.start request = .ok start) (p : Platform) :
    (∃ first second, recipe.resolve p request = .error (.pinConflict first second)) ↔
      PinRules.Clash recipe.pinRules (recipe.settle p start) := by
  rw [PinRules.clash_iff, valid.resolve_of_accepted accepted p]
  rcases PinSet.insertAll_empty_cases (PinSet.required recipe.pinRules (recipe.settle p start))
    with ⟨set, added, agree, -⟩ | ⟨first, second, refused, disagree⟩
  · rw [added]
    refine iff_of_false ?_ (not_not_intro agree)
    rintro ⟨first, second, ⟨⟩⟩
  · rw [refused]
    exact iff_of_true ⟨first, second, rfl⟩ disagree

/-- A valid recipe fails on no request but for what the request asks, or for a clash of pins. A
request that is refused is refused with the same fault when it is resolved. One that is accepted
is resolved, or two pins conflict; and they do exactly when two specifiers of one component with
different versions belong to rules whose options are all enabled in the final configuration. -/
theorem resolve_total (valid : recipe.Valid) (p : Platform) (request : Request) :
    match recipe.catalog.start request with
    | .error fault => recipe.resolve p request = .error fault
    | .ok _ => ∃ config, recipe.configure p request = .ok config ∧
      ((∃ r, recipe.resolve p request = .ok r) ∨
        ∃ first second, recipe.resolve p request = .error (.pinConflict first second)) ∧
      ((∃ first second, recipe.resolve p request = .error (.pinConflict first second)) ↔
        PinRules.Clash recipe.pinRules config) := by
  cases started : recipe.catalog.start request with
  | error fault => exact resolve_of_refused started p
  | ok start =>
    exact ⟨recipe.settle p start, configure_eq_ok_iff.2 ⟨start, started, rfl⟩,
      valid.resolved_or_conflict started p, valid.conflict_iff_clash started p⟩

/-- A recipe in which two components ask for different versions of one library. -/
def clashing : Recipe where
  catalog := .ofCalls [.flag "shared" false, .flag "zip" true, .flag "png" true]
  pruneRules := ⟨[], [⟨{ os := [.windows] }, .remove "png"⟩]⟩
  pinRules := [⟨["zip"], [⟨"zlib", "1.2.13"⟩]⟩, ⟨["zip", "png"], [⟨"zlib", "1.3"⟩]⟩]
  variableRules := ⟨"", []⟩
  linkageOption := "shared"

/-- On Linux the two components clash. On Windows, where one of them is removed, they do not, and
a request for an option that is not declared is refused for that. -/
theorem resolve_total_clashing :
    let linux : Platform := ⟨.linux, .gcc, .x86_64⟩
    let windows : Platform := ⟨.windows, .msvc, .x86_64⟩
    clashing.Valid ∧
      (∃ first second, clashing.resolve linux .empty = .error (.pinConflict first second)) ∧
      (∃ r, clashing.resolve windows .empty = .ok r) ∧
      clashing.resolve windows (.ofList [("tar", .flag true)]) =
        .error (.unknownOption "tar") := by
  intro linux windows
  have valid : clashing.Valid := .of_check rfl rfl
  have accepted : clashing.catalog.start .empty = .ok clashing.catalog.defaults := rfl
  have refused : clashing.catalog.start (.ofList [("tar", .flag true)]) =
      .error (.unknownOption "tar") := rfl
  have settled : ∀ p config, clashing.configure p .empty = .ok config →
      clashing.catalog.orphans (clashing.pruneRules.run p clashing.catalog.defaults) = [] →
      config = clashing.pruneRules.run p clashing.catalog.defaults := by
    intro p config configured closed
    obtain ⟨start, started, same⟩ := configure_eq_ok_iff.1 configured
    cases accepted.symm.trans started
    rw [← same, settle, Catalog.close_of_orphans_nil closed]
  have onLinux := resolve_total valid linux .empty
  have onWindows := resolve_total valid windows .empty
  have misspelt := resolve_total valid windows (.ofList [("tar", .flag true)])
  rw [accepted] at onLinux onWindows
  rw [refused] at misspelt
  have conflicting : ∃ first second,
      clashing.resolve linux .empty = .error (.pinConflict first second) := by
    obtain ⟨config, configured, -, conflict⟩ := onLinux
    refine conflict.2 ?_
    rw [settled linux config configured (by decide)]
    decide
  obtain ⟨config, configured, resolved | refused, conflict⟩ := onWindows
  · exact ⟨valid, conflicting, resolved, misspelt⟩
  · have clash := conflict.1 refused
    rw [settled windows config configured (by decide)] at clash
    exact absurd clash (by decide)

/-- The layered recipe with pins and variables that read its options. -/
def layeredOutputs : Recipe :=
  { layered with
    pinRules := [⟨["gui", "opengl"], [⟨"glfw", "3.3.8"⟩, ⟨"glew", "2.2.0"⟩]⟩,
      ⟨["fPIC"], [⟨"zlib", "1.2.13"⟩]⟩]
    variableRules := ⟨"APP_",
      [⟨"with_gui", .option "gui", none⟩, ⟨"pic", .anyOf [.sharedBuild, .option "fPIC"], none⟩]⟩ }

theorem layeredOutputs_valid : layeredOutputs.Valid :=
  .of_check rfl (by decide +kernel)

end Recipe

end PackageConfig
