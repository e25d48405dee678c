import PackageConfig.Fault
import PackageConfig.NameMap
import PackageConfig.Options.State

/-!
A configuration: the state of every declared option.

It is read in two ways. While rules are applied, an option that the configuration
does not know is merely neither present nor enabled. Once it is final, asking for
such an option is a fault, so that "removed" and "never declared" are told apart
(`lookup`, `value`, `enabled`, `present`).
-/

namespace PackageConfig

/-- The states of options by name. -/
structure Configuration where
  states : NameMap State
  deriving DecidableEq, Inhabited

namespace Configuration

/-- The state of an option, if the configuration knows it. -/
def get? (config : Configuration) (name : String) : Option State :=
  config.states.get? name

/-- The options that the configuration knows, ascending. -/
def names (config : Configuration) : List String :=
  config.states.names

/-- How many options the configuration knows, present or absent. -/
def size (config : Configuration) : Nat :=
  config.states.size

/-- Whether an option is known and present. -/
def isPresent (config : Configuration) (name : String) : Bool :=
  (config.get? name).any State.isPresent

/-- Whether an option is known, present and enabled. -/
def isEnabled (config : Configuration) (name : String) : Bool :=
  (config.get? name).any State.isEnabled

/-- The present options with their values, ascending by name. -/
def presentValues (config : Configuration) : List (String × Value) :=
  config.states.entries.filterMap fun entry => entry.2.value?.map fun value => (entry.1, value)

/-! ## Changing states -/

/-- Take a present option away; an option already absent keeps its first cause. -/
def remove (config : Configuration) (name : String) (cause : Cause) : Configuration :=
  ⟨config.states.modify name (State.remove cause)⟩

/-- Give a present option a fixed value; an absent option stays absent. -/
def force (config : Configuration) (name : String) (value : Value) : Configuration :=
  ⟨config.states.modify name (State.force value)⟩

theorem get?_remove (config : Configuration) (name other : String) (cause : Cause) :
    (config.remove name cause).get? other =
      if name = other then (config.get? other).map (State.remove cause) else config.get? other :=
  NameMap.get?_modify config.states name other _

theorem get?_force (config : Configuration) (name other : String) (value : Value) :
    (config.force name value).get? other =
      if name = other then (config.get? other).map (State.force value) else config.get? other :=
  NameMap.get?_modify config.states name other _

/-- Two configurations with the same states are the same. -/
theorem ext_get? {s t : Configuration} (h : ∀ name, s.get? name = t.get? name) : s = t := by
  obtain ⟨s⟩ := s
  obtain ⟨t⟩ := t
  exact congrArg Configuration.mk (NameMap.ext_get? h)

/-! ## Reading a final configuration -/

/-- The state of a declared option. -/
def lookup (config : Configuration) (name : String) : Except Fault State :=
  match config.get? name with
  | some state => .ok state
  | none => .error (.unknownOption name)

/-- The value of a declared option, if it is present. -/
def value (config : Configuration) (name : String) : Except Fault (Option Value) :=
  (config.lookup name).map State.value?

/-- Whether a declared option is present and enabled. -/
def enabled (config : Configuration) (name : String) : Except Fault Bool :=
  (config.lookup name).map State.isEnabled

/-- Whether a declared option is present. -/
def present (config : Configuration) (name : String) : Except Fault Bool :=
  (config.lookup name).map State.isPresent

/-- The states as data, by name. -/
def toData (config : Configuration) : Data :=
  .table (config.states.entries.map fun entry => (entry.1, entry.2.toData))

end Configuration

end PackageConfig
