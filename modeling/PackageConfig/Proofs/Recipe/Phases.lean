import PackageConfig.Proofs.Recipe.Validity
import PackageConfig.Proofs.Rules.Rerun

/-!
The phases of a resolution, run in any order and any number of times.

A resolution prunes for one platform and then closes. What it guarantees does not rest on that
order: every phase leads on (`leadsTo_runPhase`), so that a removal is final, and a value
that it brings in is one that a rule forces, which the check of the recipe has found to lie
in the domain of its option (`describes_runPhase`). Both hold of every sequence of phases
(`runPhases_invariant`), and so of a resolution (`describes_settle`).
-/

namespace PackageConfig

/-- A phase: the pruning rules for some platform, or the closing. -/
inductive Phase where
  | prune (p : Platform)
  | close
  deriving DecidableEq

namespace Recipe

variable {recipe : Recipe} {config start : Configuration}

/-- The configuration after a phase. -/
def runPhase (recipe : Recipe) : Phase → Configuration → Configuration
  | .prune p, config => recipe.pruneRules.run p config
  | .close, config => recipe.catalog.close config

/-- The configuration after some phases, one after another. -/
def runPhases (recipe : Recipe) (phases : List Phase) (config : Configuration) : Configuration :=
  phases.foldl (fun config phase => recipe.runPhase phase config) config

/-! ## One phase -/

theorem leadsTo_runPhase (recipe : Recipe) (phase : Phase) (config : Configuration) :
    config.LeadsTo (recipe.runPhase phase config) := by
  cases phase with
  | prune p => exact recipe.pruneRules.leadsTo_run p config
  | close => exact recipe.catalog.leadsTo_close config

/-- A phase keeps every value in the domain of its option. -/
theorem describes_runPhase (fits : recipe.Fits) (phase : Phase)
    (described : recipe.catalog.Describes config) :
    recipe.catalog.Describes (recipe.runPhase phase config) := by
  refine described.of_leadsTo (recipe.leadsTo_runPhase phase config) fun name value held => ?_
  cases phase with
  | prune p =>
    rcases (recipe.pruneRules.yields_run p config).value_from name value held with before | forced
    · exact .inl before
    · exact .inr (fits.pruneRules.admits_forced forced)
  | close => exact .inl (Catalog.get?_of_close held)

/-! ## All phases -/

theorem leadsTo_runPhases (recipe : Recipe) (phases : List Phase) (config : Configuration) :
    config.LeadsTo (recipe.runPhases phases config) := by
  unfold runPhases
  apply Configuration.leadsTo_foldl
  intro s phase
  exact recipe.leadsTo_runPhase phase s

theorem describes_runPhases (fits : recipe.Fits) (phases : List Phase)
    (described : recipe.catalog.Describes config) :
    recipe.catalog.Describes (recipe.runPhases phases config) := by
  induction phases generalizing config with
  | nil => exact described
  | cons phase rest ih => exact ih (describes_runPhase fits phase described)

theorem runPhases_append (recipe : Recipe) (earlier later : List Phase) (config : Configuration) :
    recipe.runPhases (earlier ++ later) config =
      recipe.runPhases later (recipe.runPhases earlier config) :=
  List.foldl_append

/-- What a resolution ends in fits the declarations. -/
theorem describes_settle (valid : recipe.Valid) {request : Request}
    (accepted : recipe.catalog.start request = .ok start) (p : Platform) :
    recipe.catalog.Describes (recipe.settle p start) :=
  describes_runPhases valid.fits [.prune p, .close] (valid.describes_start accepted)

/-- Whatever phases run after a request was accepted, and for whatever platforms: the
configuration knows exactly the declared options, every value lies in the domain of its
option, and an option that is absent at some moment is absent at every later one, for the
same cause. -/
theorem runPhases_invariant {request : Request} (valid : recipe.Valid)
    (accepted : recipe.catalog.start request = .ok start) (earlier later : List Phase) :
    recipe.catalog.Describes (recipe.runPhases earlier start) ∧
      ∀ name cause, (recipe.runPhases earlier start).get? name = some (.absent cause) →
        (recipe.runPhases (earlier ++ later) start).get? name = some (.absent cause) := by
  refine ⟨describes_runPhases valid.fits earlier (valid.describes_start accepted), ?_⟩
  rw [runPhases_append]
  exact (recipe.leadsTo_runPhases later _).absent_kept

/-- Where every platform forces a shared build, `fPIC` is removed only when the rules run a second
time; after that neither the closing nor another platform brings it back. -/
theorem runPhases_invariant_forcing :
    let recipe := forcing ⟨"shared", .flag true⟩
    let start := forcingStates (.present (.flag true)) true false
    let earlier : List Phase := [.prune ⟨.linux, .gcc, .x86_64⟩, .prune ⟨.linux, .gcc, .x86_64⟩]
    let later : List Phase := [.close, .prune ⟨.windows, .msvc, .x86_64⟩, .close]
    recipe.Valid ∧ recipe.catalog.start .empty = .ok start ∧
      recipe.catalog.Describes (recipe.runPhases earlier start) ∧
      (recipe.runPhases (earlier ++ later) start).get? "fPIC" =
        some (.absent (.optionRule "remove fPIC when shared=true")) := by
  intro recipe start earlier later
  have valid : recipe.Valid := .of_check rfl rfl
  have accepted : recipe.catalog.start .empty = .ok start := rfl
  have removed : (recipe.runPhases earlier start).get? "fPIC" =
      some (.absent (.optionRule "remove fPIC when shared=true")) := by decide
  obtain ⟨described, kept⟩ := runPhases_invariant valid accepted earlier later
  exact ⟨valid, accepted, described, kept "fPIC" _ removed⟩

end Recipe

end PackageConfig
