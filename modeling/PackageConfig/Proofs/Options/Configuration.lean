import PackageConfig.Options.Configuration

/-!
Configurations along a run.

Rules and closing passes change a configuration only by `remove` and `force`.
`LeadsTo` is what both of them, and so any sequence of them, keep: the names,
and every absent option with its first cause.
-/

namespace PackageConfig

/-- A removal leaves no state present. -/
theorem State.exists_remove_eq_absent (cause : Cause) (state : State) :
    ∃ first, state.remove cause = .absent first := by
  cases state with
  | present value => exact ⟨cause, rfl⟩
  | absent first => exact ⟨first, rfl⟩

namespace Configuration

variable {s t u : Configuration} {name : String}

/-! ## Present and enabled options -/

theorem isPresent_iff : s.isPresent name = true ↔ ∃ value, s.get? name = some (.present value) := by
  unfold isPresent
  cases held : s.get? name with
  | none => simp
  | some state => cases state <;> simp [State.isPresent]

theorem isPresent_of_isEnabled (enabled : s.isEnabled name = true) : s.isPresent name = true := by
  unfold isEnabled at enabled
  unfold isPresent
  cases held : s.get? name with
  | none =>
    rw [held] at enabled
    cases enabled
  | some state =>
    rw [held] at enabled
    cases state with
    | present => rfl
    | absent => cases enabled

theorem isPresent_congr (same : s.get? name = t.get? name) :
    s.isPresent name = t.isPresent name := by
  unfold isPresent
  rw [same]

theorem isEnabled_congr (same : s.get? name = t.get? name) :
    s.isEnabled name = t.isEnabled name := by
  unfold isEnabled
  rw [same]

theorem not_isPresent_of_absent {cause : Cause} (absent : s.get? name = some (.absent cause)) :
    s.isPresent name = false := by
  unfold isPresent
  rw [absent]
  rfl

/-- An option is known and was removed. -/
def IsAbsent (config : Configuration) (name : String) : Prop :=
  ∃ cause, config.get? name = some (.absent cause)

theorem mem_names_iff : name ∈ s.names ↔ (s.get? name).isSome = true :=
  NameMap.mem_names_iff

theorem get?_insert (s : Configuration) (name other : String) (state : State) :
    get? ⟨s.states.insert name state⟩ other = if name = other then some state else s.get? other :=
  NameMap.get?_insert s.states name other state

/-! ## Reading a known option -/

theorem enabled_eq_ok (known : ∃ state, s.get? name = some state) :
    s.enabled name = .ok (s.isEnabled name) := by
  obtain ⟨state, held⟩ := known
  rw [enabled, lookup, isEnabled, held]
  rfl

theorem value_eq_ok (known : ∃ state, s.get? name = some state) :
    s.value name = .ok ((s.get? name).bind State.value?) := by
  obtain ⟨state, held⟩ := known
  rw [value, lookup, held]
  rfl

/-! ## What a run keeps -/

/-- The second configuration comes later in a run than the first: it lists the same
names, and what was absent is absent still, for its first cause. -/
structure LeadsTo (s t : Configuration) : Prop where
  names_eq : t.names = s.names
  absent_kept : ∀ name cause, s.get? name = some (.absent cause) →
    t.get? name = some (.absent cause)

namespace LeadsTo

theorem refl (s : Configuration) : s.LeadsTo s :=
  ⟨rfl, fun _ _ absent => absent⟩

theorem trans (first : s.LeadsTo t) (second : t.LeadsTo u) : s.LeadsTo u :=
  ⟨second.names_eq.trans first.names_eq,
    fun name cause absent => second.absent_kept name cause (first.absent_kept name cause absent)⟩

theorem isSome_get? (run : s.LeadsTo t) (name : String) :
    (t.get? name).isSome = (s.get? name).isSome := by
  have listed : name ∈ t.names ↔ name ∈ s.names := by rw [run.names_eq]
  unfold names at listed
  rw [NameMap.mem_names_iff, NameMap.mem_names_iff] at listed
  exact Bool.eq_iff_iff.2 listed

theorem unknown_kept (run : s.LeadsTo t) (unknown : s.get? name = none) : t.get? name = none := by
  have same := run.isSome_get? name
  rw [unknown, Option.isSome_none, Option.isSome_eq_false_iff, Option.isNone_iff_eq_none] at same
  exact same

/-- What is present later was present before. -/
theorem present_before {value : Value} (run : s.LeadsTo t)
    (present : t.get? name = some (.present value)) :
    ∃ before, s.get? name = some (.present before) := by
  cases held : s.get? name with
  | none =>
    rw [run.unknown_kept held] at present
    cases present
  | some state =>
    cases state with
    | present before => exact ⟨before, rfl⟩
    | absent cause =>
      rw [run.absent_kept name cause held] at present
      cases present

/-- What is not present stays as it is. -/
theorem get?_of_gone (run : s.LeadsTo t) (gone : ∀ value, s.get? name ≠ some (.present value)) :
    t.get? name = s.get? name := by
  cases held : s.get? name with
  | none => exact run.unknown_kept held
  | some state =>
    cases state with
    | present value => exact absurd held (gone value)
    | absent cause => exact run.absent_kept name cause held

end LeadsTo

theorem leadsTo_remove (s : Configuration) (name : String) (cause : Cause) :
    s.LeadsTo (s.remove name cause) := by
  refine ⟨NameMap.names_modify s.states name _, fun other first absent => ?_⟩
  rw [get?_remove, absent]
  split <;> rfl

theorem leadsTo_force (s : Configuration) (name : String) (value : Value) :
    s.LeadsTo (s.force name value) := by
  refine ⟨NameMap.names_modify s.states name _, fun other first absent => ?_⟩
  rw [get?_force, absent]
  split <;> rfl

/-- What every step keeps, a run of steps keeps. -/
theorem leadsTo_foldl {α : Type} {step : Configuration → α → Configuration}
    (kept : ∀ s item, LeadsTo s (step s item)) (items : List α) (s : Configuration) :
    s.LeadsTo (items.foldl step s) := by
  induction items generalizing s with
  | nil => exact .refl s
  | cons item rest ih => exact (kept s item).trans (ih (step s item))

/-- A removal leaves no value that was not there. -/
theorem get?_of_remove {other : String} {cause : Cause} {value : Value}
    (present : (s.remove name cause).get? other = some (.present value)) :
    s.get? other = some (.present value) := by
  rw [get?_remove] at present
  split at present
  · obtain ⟨state, held, removed⟩ := Option.map_eq_some_iff.1 present
    cases state <;> cases removed
  · exact present

end Configuration

end PackageConfig
