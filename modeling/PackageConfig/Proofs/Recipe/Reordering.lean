import PackageConfig.Proofs.Recipe.Totality

/-!
Which orders in a recipe matter.

The pruning rules run in the order of their tables. The declarations, the rules on pins and the
rules on variables have an order too, in which they are listed and checked, but a resolution
does not depend on it: declarations are looked up by name and closed pass by pass, pins are
gathered in a set, and variables in a table without repetitions. Only a conflict of pins may be
reported between other pins, since it is the first one met (`SameOutcome`).
-/

namespace PackageConfig

namespace Recipe

variable {recipe other : Recipe}

/-- Two recipes differ at most in the order of their declarations, of their rules on pins, with
the options and the pins inside each, and of their rules on variables. The usual driver
names of the variables are no part of a resolution and may differ. -/
structure Reordered (recipe other : Recipe) : Prop where
  declarations_perm : recipe.catalog.declarations.Perm other.catalog.declarations
  pruneRules_eq : recipe.pruneRules = other.pruneRules
  pinRules_reordered : PinRules.Reordered recipe.pinRules other.pinRules
  variableRules_perm : recipe.variableRules.rules.Perm other.variableRules.rules
  linkageOption_eq : recipe.linkageOption = other.linkageOption

/-- Two outcomes of resolving agree: they are the same resolution or the same refusal of the
request, or both are a conflict of pins. -/
inductive SameOutcome : Except Fault Resolution → Except Fault Resolution → Prop
  | resolved (r : Resolution) : SameOutcome (.ok r) (.ok r)
  | unknownOption (name : String) :
    SameOutcome (.error (.unknownOption name)) (.error (.unknownOption name))
  | outsideDomain (name given : String) (expected : Domain) :
    SameOutcome (.error (.outsideDomain name given expected))
      (.error (.outsideDomain name given expected))
  | pinConflict (first second otherFirst otherSecond : Pin) :
    SameOutcome (.error (.pinConflict first second)) (.error (.pinConflict otherFirst otherSecond))

theorem SameOutcome.of_refuses {fault : Fault} (refuses : Catalog.Refuses fault) :
    SameOutcome (.error fault) (.error fault) := by
  cases refuses with
  | unknownOption name => exact .unknownOption name
  | outsideDomain name given expected => exact .outsideDomain name given expected

namespace Reordered

theorem find?_eq (reordered : recipe.Reordered other) (valid : recipe.Valid)
    (otherValid : other.Valid) : recipe.catalog.find? = other.catalog.find? :=
  valid.wellFormed.find?_of_perm otherValid.wellFormed reordered.declarations_perm

theorem start_eq (reordered : recipe.Reordered other) (valid : recipe.Valid)
    (otherValid : other.Valid) (request : Request) :
    recipe.catalog.start request = other.catalog.start request :=
  Catalog.start_congr valid.wellFormed otherValid.wellFormed
    (reordered.find?_eq valid otherValid) request

theorem settle_eq (reordered : recipe.Reordered other) (valid : recipe.Valid)
    (otherValid : other.Valid) (p : Platform) (start : Configuration) :
    recipe.settle p start = other.settle p start := by
  have parents := Catalog.parent?_congr (reordered.find?_eq valid otherValid)
  unfold settle
  rw [Catalog.close_congr valid.wellFormed otherValid.wellFormed parents, reordered.pruneRules_eq]

theorem outcome_eq (reordered : recipe.Reordered other) (valid : recipe.Valid) (p : Platform)
    (config : Configuration) (pins : PinSet) :
    recipe.outcome p config pins = other.outcome p config pins := by
  have readings : ∀ linkage, VariableRules.readings recipe.variableRules.rules config linkage =
      VariableRules.readings other.variableRules.rules config linkage :=
    VariableRules.readings_of_perm valid.fits.variableRules.names_nodup
      reordered.variableRules_perm config
  simp only [outcome, readings, reordered.linkageOption_eq]

end Reordered

/-- Two valid recipes that differ in order only, outside the pruning rules, resolve every
request on every platform to the same outcome. -/
theorem resolve_reordered (valid : recipe.Valid) (otherValid : other.Valid)
    (reordered : recipe.Reordered other) (p : Platform) (request : Request) :
    SameOutcome (recipe.resolve p request) (other.resolve p request) := by
  have starts := reordered.start_eq valid otherValid request
  cases started : recipe.catalog.start request with
  | error fault =>
    rw [resolve_of_refused started, resolve_of_refused (starts.symm.trans started)]
    exact .of_refuses (Catalog.refuses_of_start started)
  | ok start =>
    rw [valid.resolve_of_accepted started,
      otherValid.resolve_of_accepted (starts.symm.trans started),
      ← reordered.settle_eq valid otherValid]
    rcases PinSet.insertAll_empty_of_same_pins reordered.pinRules_reordered.mem_required_iff with
      ⟨set, added, otherAdded⟩ | ⟨first, second, otherFirst, otherSecond, refused, otherRefused⟩
    · rw [added, otherAdded]
      change SameOutcome (.ok (recipe.outcome p _ set)) (.ok (other.outcome p _ set))
      rw [← reordered.outcome_eq valid]
      exact .resolved _
    · rw [refused, otherRefused]
      exact .pinConflict first second otherFirst otherSecond

/-- The recipe with outputs, every table but the pruning rules in another order. -/
def layeredOutputsReordered : Recipe where
  catalog := .ofCalls [.flag "gui" true, .flag "opengl" true (some "gui"), .flag "fPIC" true,
    .flag "shared" false]
  pruneRules := layered.pruneRules
  pinRules := [⟨["fPIC"], [⟨"zlib", "1.2.13"⟩]⟩,
    ⟨["opengl", "gui"], [⟨"glew", "2.2.0"⟩, ⟨"glfw", "3.3.8"⟩]⟩]
  variableRules := ⟨"APP_",
    [⟨"pic", .anyOf [.sharedBuild, .option "fPIC"], none⟩, ⟨"with_gui", .option "gui", none⟩]⟩
  linkageOption := "shared"

/-- On Windows both recipes require all three components, met in different orders. -/
theorem resolve_reordered_layered :
    let request : Request := .ofList [("gui", .text "True")]
    let p : Platform := ⟨.windows, .msvc, .x86_64⟩
    layeredOutputs.Valid ∧ layeredOutputsReordered.Valid ∧
      layeredOutputs.Reordered layeredOutputsReordered ∧
      SameOutcome (layeredOutputs.resolve p request)
        (layeredOutputsReordered.resolve p request) := by
  intro request p
  have valid : layeredOutputsReordered.Valid := .of_check rfl (by decide +kernel)
  have pins : PinRules.Reordered layeredOutputs.pinRules layeredOutputsReordered.pinRules := by
    refine ⟨[⟨["fPIC"], [⟨"zlib", "1.2.13"⟩]⟩,
      ⟨["gui", "opengl"], [⟨"glfw", "3.3.8"⟩, ⟨"glew", "2.2.0"⟩]⟩], .swap _ _ _, ?_⟩
    exact .cons ⟨.refl _, .refl _⟩ (.cons ⟨.swap _ _ _, .swap _ _ _⟩ .nil)
  have reordered : layeredOutputs.Reordered layeredOutputsReordered :=
    ⟨by decide, rfl, pins, .swap _ _ _, rfl⟩
  exact ⟨layeredOutputs_valid, valid, reordered,
    resolve_reordered layeredOutputs_valid valid reordered p request⟩

end Recipe

end PackageConfig
