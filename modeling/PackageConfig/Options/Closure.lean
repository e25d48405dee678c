import PackageConfig.Options.Catalog

/-!
Closing a configuration: an option whose declared parent is absent or disabled is
removed, and this is repeated until no such option is left.

Each pass decides on the configuration as the pass before left it and only then
removes, so the order of the declarations plays no part. A pass that removes anything
leaves fewer options present, and so the passes come to an end.
-/

namespace PackageConfig

namespace Configuration

/-- How many options of a configuration are present. -/
def presentCount (config : Configuration) : Nat :=
  config.states.entries.countP fun entry => entry.2.isPresent

theorem isPresent_remove_le {state : State} {cause : Cause}
    (h : (state.remove cause).isPresent) : state.isPresent := by
  cases state with
  | present => rfl
  | absent => exact h

theorem countP_modify_le (entries : List (String × State)) (name : String) (cause : Cause) :
    (entries.map fun entry =>
        (entry.1, if entry.1 = name then entry.2.remove cause else entry.2)).countP
        (fun entry => entry.2.isPresent) ≤
      entries.countP fun entry => entry.2.isPresent := by
  rw [List.countP_map]
  refine List.countP_mono_left fun entry _ h => ?_
  simp only [Function.comp] at h
  split at h
  · exact isPresent_remove_le h
  · exact h

/-- A removal never makes an option present. -/
theorem presentCount_remove_le (config : Configuration) (name : String) (cause : Cause) :
    (config.remove name cause).presentCount ≤ config.presentCount :=
  countP_modify_le config.states.entries name cause

/-- The removal of a present option leaves fewer options present. -/
theorem presentCount_remove_lt {config : Configuration} {name : String} (cause : Cause)
    (h : config.isPresent name) :
    (config.remove name cause).presentCount < config.presentCount := by
  obtain ⟨⟨entries, ascending⟩⟩ := config
  simp only [presentCount, remove, NameMap.modify]
  simp only [isPresent, get?, NameMap.get?] at h
  clear ascending
  induction entries with
  | nil => simp [NameMap.find] at h
  | cons head rest ih =>
    rw [NameMap.find] at h
    rw [List.map_cons, List.countP_cons, List.countP_cons]
    split at h
    next eq =>
      have present : head.2.isPresent = true := h
      have removed : (head.2.remove cause).isPresent = false := by
        cases state : head.2 with
        | present => rfl
        | absent => rw [state] at present; cases present
      have := countP_modify_le rest name cause
      simp only [eq, if_true, present, removed]
      simp only [Bool.false_eq_true, if_false]
      omega
    next ne =>
      have := ih h
      simp only [ne, if_false]
      omega

end Configuration

namespace Catalog

/-- The present options whose parent is not enabled, each with that parent, in the
order of the declarations. -/
def orphans (c : Catalog) (config : Configuration) : List (String × String) :=
  c.declarations.filterMap fun d =>
    d.parent.bind fun parent =>
      if config.isPresent d.name && !config.isEnabled parent then some (d.name, parent) else none

/-- Remove orphans, each for the sake of its parent. -/
def removeOrphans (orphans : List (String × String)) (config : Configuration) : Configuration :=
  orphans.foldl (fun config orphan => config.remove orphan.1 (.parent orphan.2)) config

theorem isPresent_of_mem_orphans {c : Catalog} {config : Configuration} {orphan : String × String}
    (h : orphan ∈ c.orphans config) : config.isPresent orphan.1 := by
  obtain ⟨d, -, h⟩ := List.mem_filterMap.1 h
  obtain ⟨parent, -, h⟩ := Option.bind_eq_some_iff.1 h
  split at h
  next both =>
    cases h
    exact (Bool.and_eq_true_iff.1 both).1
  · cases h

theorem presentCount_removeOrphans_le (orphans : List (String × String)) (config : Configuration) :
    (removeOrphans orphans config).presentCount ≤ config.presentCount := by
  induction orphans generalizing config with
  | nil => exact Nat.le_refl _
  | cons orphan rest ih =>
    exact Nat.le_trans (ih _) (Configuration.presentCount_remove_le config orphan.1 _)

theorem presentCount_removeOrphans_lt {orphans : List (String × String)} {config : Configuration}
    (nonempty : orphans ≠ []) (h : ∀ orphan ∈ orphans, config.isPresent orphan.1) :
    (removeOrphans orphans config).presentCount < config.presentCount := by
  cases orphans with
  | nil => exact absurd rfl nonempty
  | cons orphan rest =>
    exact Nat.lt_of_le_of_lt (presentCount_removeOrphans_le rest _)
      (Configuration.presentCount_remove_lt _ (h orphan List.mem_cons_self))

/-- The configuration without the options whose parent is absent or disabled, and
without those that this leaves behind in turn. -/
def close (c : Catalog) (config : Configuration) : Configuration :=
  if h : c.orphans config = [] then config
  else
    have : (removeOrphans (c.orphans config) config).presentCount < config.presentCount :=
      presentCount_removeOrphans_lt h fun _ mem => isPresent_of_mem_orphans mem
    c.close (removeOrphans (c.orphans config) config)
termination_by config.presentCount

end Catalog

end PackageConfig
