import PackageConfig.Options.Value

/-!
The state of an option while it is being resolved. An option that was taken
away stays listed, with the cause of its removal: being absent is a state of a
declared option, not a gap in the list.
-/

namespace PackageConfig

/-- Why an option was removed: by a rule on an option, by a rule on the
platform (each given by its description), or because its parent is not enabled. -/
inductive Cause where
  | optionRule (rule : String)
  | platformRule (rule : String)
  | parent (name : String)
  deriving DecidableEq, Inhabited

namespace Cause

/-- The cause as an explanation words it. -/
def shown : Cause → String
  | .optionRule rule => s!"build mode: {rule}"
  | .platformRule rule => s!"platform: {rule}"
  | .parent name => s!"parent '{name}' is disabled"

/-- The cause as data: the phase that removed the option, and its reason. -/
def toData : Cause → Data
  | .optionRule rule => .table [("phase", .text "build_mode"), ("rule", .text rule)]
  | .platformRule rule => .table [("phase", .text "platform"), ("rule", .text rule)]
  | .parent name => .table [("phase", .text "gated"), ("parent", .text name)]

end Cause

/-- An option is present with a value, or absent for a cause. -/
inductive State where
  | present (value : Value)
  | absent (cause : Cause)
  deriving DecidableEq, Inhabited

namespace State

/-- Whether the option holds a value. -/
def isPresent : State → Bool
  | .present _ => true
  | .absent _ => false

/-- The value that the option holds. -/
def value? : State → Option Value
  | .present value => some value
  | .absent _ => none

/-- The cause of the removal, if the option was removed. -/
def cause? : State → Option Cause
  | .present _ => none
  | .absent cause => some cause

/-- Whether the option is present with a value that enables it. -/
def isEnabled : State → Bool
  | .present value => value.enabled
  | .absent _ => false

/-- Take the option away. An option that is absent already keeps its first cause. -/
def remove (cause : Cause) : State → State
  | .present _ => .absent cause
  | .absent first => .absent first

/-- Give the option a fixed value. An absent option stays absent. -/
def force (value : Value) : State → State
  | .present _ => .present value
  | .absent cause => .absent cause

/-- The state as data. -/
def toData : State → Data
  | .present value => .table [("present", value.toData)]
  | .absent cause => .table [("absent", cause.toData)]

end State

end PackageConfig
