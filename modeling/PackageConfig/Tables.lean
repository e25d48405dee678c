import PackageConfig.Fault
import PackageConfig.Toml

/-!
Records in TOML texts, and the faults of texts that hold none.
-/

namespace PackageConfig

/-- The fault of a TOML text that came from `origin`. -/
def Toml.Flaw.toFault (origin : String) : Flaw → Fault
  | .malformed => .invalidManifest (.malformedTables origin)
  | .longKey => .invalidManifest (.longKey origin)

/-- Read a record from a TOML text that came from `origin`. -/
def readTables {α : Type} (origin : String) (ofData? : Data → Option α) (text : String) :
    Except Fault α :=
  match Toml.parse text with
  | .error flaw => .error (flaw.toFault origin)
  | .ok data =>
    match ofData? data with
    | some record => .ok record
    | none => .error (.invalidManifest (.malformedTables origin))

end PackageConfig
