/-!
What can be wrong with a TOML text.
-/

namespace PackageConfig.Toml

/-- Why a text is not TOML. -/
inductive Flaw where
  | malformed
  /-- A dotted key has too many parts. -/
  | longKey
  deriving DecidableEq, Inhabited

/-- What has to be there lest the text be malformed. -/
def wellFormed {α : Type} : Option α → Except Flaw α
  | some a => .ok a
  | none => .error .malformed

end PackageConfig.Toml
