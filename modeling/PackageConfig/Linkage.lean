import PackageConfig.Options.Configuration

/-!
Whether a package is built as static or as shared libraries, which one of its
options decides.
-/

namespace PackageConfig

/-- How libraries are built: to be linked in, or to be shared. -/
inductive Linkage where
  | static
  | shared
  deriving DecidableEq, Inhabited

namespace Linkage

/-- The name of a linkage. -/
def name : Linkage → String
  | static => "static"
  | shared => "shared"

/-- The linkage of a name. -/
def named? : String → Option Linkage
  | "static" => some static
  | "shared" => some shared
  | _ => none

/-- Whether the build is shared. -/
def isShared : Linkage → Bool
  | static => false
  | shared => true

/-- The build is shared when the given option is enabled in a final configuration. -/
def ofOption (config : Configuration) (option : String) : Except Fault Linkage := do
  if ← config.enabled option then return shared else return static

end Linkage

end PackageConfig
