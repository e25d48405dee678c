import PackageConfig.Toml.Expr

/-!
The statements of TOML, one to a line: a key with its value, the header of a table,
and the header of an element of a list of tables. A header that breaks off where a part
of its key is missing, and a key without a value behind its `=`, are statements too, which
mean nothing.
-/

namespace PackageConfig.Toml

/-- One statement. -/
inductive Statement where
  | entry (key : Key) (value : Expr)
  | table (key : Key)
  | element (key : Key)

/-- Read the value of an entry, of which `fuel` bounds the tokens; it may be missing. -/
def entryValue? (fuel : Nat) : List Lexeme → Option (Expr × List Lexeme)
  | [] => some (.missing, [])
  | ⟨.lineEnd, gap⟩ :: rest => some (.missing, ⟨.lineEnd, gap⟩ :: rest)
  | ls => expr? fuel nestingLimit ls

/-- What follows the line. -/
def skipLine (ls : List Lexeme) : List Lexeme :=
  ls.dropWhile fun l => l.token ≠ .lineEnd

/-- What follows the header of a table, or with `double` that of an element: its closing
brackets or, if its key lacks its last part and no bracket follows, nothing of the line. -/
def headerRest? (double : Bool) (key : Key) : List Lexeme → Option (List Lexeme)
  | ⟨.mark ']', _⟩ :: rest =>
    match double, rest with
    | false, rest => some rest
    | true, ⟨.mark ']', []⟩ :: rest => some rest
    | true, _ => none
  | ls => if key.isOpen then some (skipLine ls) else none

/-- Read one statement; `fuel` bounds the tokens of its value. -/
def statement? (fuel : Nat) (ls : List Lexeme) : Option (Statement × List Lexeme) :=
  match ls with
  | ⟨.mark '[', _⟩ :: ⟨.mark '[', []⟩ :: rest =>
    let (key, rest) := readKey rest
    (headerRest? true key rest).map fun rest => (.element key, rest)
  | ⟨.mark '[', _⟩ :: rest =>
    let (key, rest) := readKey rest
    (headerRest? false key rest).map fun rest => (.table key, rest)
  | ls =>
    let (key, rest) := readKey ls
    match rest with
    | ⟨.mark '=', _⟩ :: rest => do
      let (value, rest) ← entryValue? fuel rest
      return (.entry key value, rest)
    | _ => none

/-- Read statements, one to a line; `count` bounds their number, and `fuel` the tokens of
a value. -/
def statementsWithin (fuel : Nat) : Nat → List Lexeme → Option (List Statement)
  | 0, _ => none
  | count + 1, ls =>
    match skipEnds ls with
    | [] => some []
    | ls => do
      let (statement, rest) ← statement? fuel ls
      match rest with
      | [] => return [statement]
      | ⟨.lineEnd, _⟩ :: rest => return statement :: (← statementsWithin fuel count rest)
      | _ => none

/-- Read all statements. -/
def statements? (ls : List Lexeme) : Option (List Statement) :=
  statementsWithin (2 * ls.length + 2) (ls.length + 1) ls

end PackageConfig.Toml
