import PackageConfig.Toml.Meaning
import PackageConfig.Toml.Statement

/-!
Reading TOML: from text to data. The statements of a document fall into
sections, each headed by the table that its entries go into; a section is placed
in the document when it is complete.

A text that cannot be cut into statements is malformed, whatever else is wrong with
it; only then are the statements understood, one after another.
-/

namespace PackageConfig.Toml

/-! ## Sections -/

/-- The entries in front of the next header, and the statements from there on. -/
def leadingEntries : List Statement → List (Key × Expr) × List Statement
  | .entry key value :: rest =>
    let (entries, rest) := leadingEntries rest
    ((key, value) :: entries, rest)
  | rest => ([], rest)

theorem length_leadingEntries_le (statements : List Statement) :
    (leadingEntries statements).2.length ≤ statements.length := by
  fun_induction leadingEntries statements with
  | case1 _ _ _ _ _ _ ih => exact Nat.le_succ_of_le (by simpa only [*] using ih)
  | case2 => exact Nat.le_refl _

/-- Place the section of a table: the table is new, or was only passed through so far. -/
def placeTable (root : Fields) (route : Route) (entries : List (Key × Expr)) :
    Except Flaw Fields :=
  let change (fields : Fields) : Except Flaw Fields :=
    match fields.get? route.last with
    | none => do
      let inner ← fill [] entries
      return fields ++ [(route.last, .table .header inner)]
    | some (.table .passed inner) => do
      let inner ← fill inner entries
      return Fields.set fields route.last (.table .header inner)
    | some _ => throw .malformed
  Fields.update change route.path root

/-- Place the section of an element: it goes to the end of its list of tables. Whether
there can be such a list is asked when the section is complete. -/
def placeElement (root : Fields) (route : Route) (entries : List (Key × Expr)) :
    Except Flaw Fields := do
  let inner ← fill [] entries
  let change (fields : Fields) : Except Flaw Fields :=
    match fields.get? route.last with
    | none => return fields ++ [(route.last, .tables [inner])]
    | some (.tables elements) =>
      return Fields.set fields route.last (.tables (elements ++ [inner]))
    | some _ => throw .malformed
  Fields.update change route.path root

/-- Place the sections of a document one after another. -/
def assemble (root : Fields) (statements : List Statement) : Except Flaw Fields :=
  match statements with
  | [] => .ok root
  | .entry .. :: _ => .error .malformed
  | .table key :: rest => do
    have : (leadingEntries rest).2.length ≤ rest.length := length_leadingEntries_le rest
    let route ← Key.route key
    let root ← placeTable root route (leadingEntries rest).1
    assemble root (leadingEntries rest).2
  | .element key :: rest => do
    have : (leadingEntries rest).2.length ≤ rest.length := length_leadingEntries_le rest
    let route ← Key.route key
    let root ← placeElement root route (leadingEntries rest).1
    assemble root (leadingEntries rest).2
termination_by statements.length

/-- The document that statements make. -/
def document (statements : List Statement) : Except Flaw Data := do
  let (entries, rest) := leadingEntries statements
  let root ← fill [] entries
  return .table (fieldsToData (← assemble root rest))

/-! ## Texts -/

/-- Drop a byte order mark. -/
def skipMark : List Char → List Char
  | '\ufeff' :: rest => rest
  | cs => cs

/-- The data that a TOML text holds. -/
def parse (text : String) : Except Flaw Data := do
  let statements ← wellFormed ((lexemes (skipMark text.toList)).bind statements?)
  document statements

end PackageConfig.Toml
