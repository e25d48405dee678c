import PackageConfig.Toml.Token

/-!
Keys and values as they are written: which tokens make a dotted key, a word, a list
or an inline table. What they mean, and whether they mean anything, is not asked yet:
a key may have empty or malformed parts, and a word may be no value.

Inside a list or an inline table, line ends may stand around every item, key, mark
and value, but not inside a dotted key.
-/

namespace PackageConfig.Toml

/-- A dotted key by its parts, of which one that is missing is an empty word. -/
abbrev Key := List Token

/-- A value as it is written. -/
inductive Expr where
  | quoted (q : Quotation)
  | word (cs : List Char)
  | list (items : List Expr)
  | table (entries : List (Key × Expr))

/-- The value that is missing: an empty word, which means nothing. -/
def Expr.missing : Expr := .word []

/-! ## Keys -/

/-- The part of a key that is missing: an empty word, which names nothing. -/
def missingPart : Token := .word ""

/-- Whether a key lacks its last part. -/
def Key.isOpen (key : Key) : Bool :=
  key.getLast? = some missingPart

/-- Whether a token stands for a part of a key. -/
def isPart : Token → Bool
  | .word _ => true
  | .quoted _ => true
  | _ => false

/-- The parts of the dotted key in front, and the rest. -/
def readKey : List Lexeme → Key × List Lexeme
  | ⟨.mark '.', _⟩ :: rest =>
    let (parts, rest) := readKey rest
    (missingPart :: parts, rest)
  | first :: ⟨.mark '.', gap⟩ :: rest =>
    if isPart first.token then
      let (parts, rest) := readKey rest
      (first.token :: parts, rest)
    else ([missingPart], first :: ⟨.mark '.', gap⟩ :: rest)
  | first :: rest =>
    if isPart first.token then ([first.token], rest) else ([missingPart], first :: rest)
  | [] => ([missingPart], [])

/-- Pass over line ends. -/
def skipEnds (ls : List Lexeme) : List Lexeme :=
  ls.dropWhile fun l => l.token = .lineEnd

/-! ## Words -/

/-- The words and dots that go on with a word, as they are written, and the rest: dots
have to follow at once, but blanks may stand in front of a word. -/
def joinWord : List Lexeme → List Char × List Lexeme
  | ⟨.word s, gap⟩ :: rest =>
    let (word, rest) := joinWord rest
    (gap ++ s.toList ++ word, rest)
  | ⟨.mark '.', []⟩ :: rest =>
    let (word, rest) := joinWord rest
    ('.' :: word, rest)
  | rest => ([], rest)

/-- The word in front, whatever the gap before it, and the rest. -/
def frontWord : List Lexeme → List Char × List Lexeme
  | [] => ([], [])
  | first :: rest => joinWord (⟨first.token, []⟩ :: rest)

/-! ## Values -/

/-- The most lists and inline tables that may stand in one another. -/
def nestingLimit : Nat := 80

mutual

/-- Read a value; `fuel` bounds the tokens it is made of, and `depth` the lists and
inline tables in one another. -/
def expr? : Nat → Nat → List Lexeme → Option (Expr × List Lexeme)
  | 0, _, _ => none
  | fuel + 1, depth, ls =>
    match ls, depth with
    | ⟨.quoted q, _⟩ :: rest, _ => some (.quoted q, rest)
    | ⟨.mark '[', _⟩ :: _, 0 => none
    | ⟨.mark '[', _⟩ :: rest, depth + 1 =>
      (items? fuel depth rest).map fun (items, rest) => (.list items, rest)
    | ⟨.mark '\x7b', _⟩ :: _, 0 => none
    | ⟨.mark '\x7b', _⟩ :: rest, depth + 1 =>
      (entries? fuel depth rest).map fun (entries, rest) => (.table entries, rest)
    | ls, _ =>
      let (word, rest) := frontWord ls
      if word.isEmpty then none else some (.word word, rest)

/-- Read the items of a list from behind its bracket or a comma. -/
def items? : Nat → Nat → List Lexeme → Option (List Expr × List Lexeme)
  | 0, _, _ => none
  | fuel + 1, depth, ls =>
    match skipEnds ls with
    | ⟨.mark ']', _⟩ :: rest => some ([], rest)
    | ls => do
      let (item, rest) ← expr? fuel depth ls
      match skipEnds rest with
      | ⟨.mark ',', _⟩ :: rest => do
        let (items, rest) ← items? fuel depth rest
        return (item :: items, rest)
      | ⟨.mark ']', _⟩ :: rest => return ([item], rest)
      | _ => none

/-- Read the entries of an inline table from behind its brace or a comma; the last may
lack its value. -/
def entries? : Nat → Nat → List Lexeme → Option (List (Key × Expr) × List Lexeme)
  | 0, _, _ => none
  | fuel + 1, depth, ls =>
    match skipEnds ls with
    | ⟨.mark '\x7d', _⟩ :: rest => some ([], rest)
    | ls =>
      let (key, rest) := readKey ls
      match skipEnds rest with
      | ⟨.mark '=', _⟩ :: rest =>
        match skipEnds rest with
        | ⟨.mark '\x7d', _⟩ :: rest => some ([(key, .missing)], rest)
        | ls => do
          let (value, rest) ← expr? fuel depth ls
          match skipEnds rest with
          | ⟨.mark ',', _⟩ :: rest => do
            let (entries, rest) ← entries? fuel depth rest
            return ((key, value) :: entries, rest)
          | ⟨.mark '\x7d', _⟩ :: rest => return ([(key, value)], rest)
          | _ => none
      | ⟨.mark '\x7d', _⟩ :: rest => some ([(key, .missing)], rest)
      | _ => none

end

end PackageConfig.Toml
