import PackageConfig.Toml.Expr
import PackageConfig.Toml.Moment
import PackageConfig.Toml.Number
import PackageConfig.Toml.Table

/-!
What keys and values mean: from what is written to data. Of several flaws the first in
the text is reported, a key before its value, and a key that stands already after
the value that is given to it again.
-/

namespace PackageConfig.Toml

/-! ## Keys -/

/-- Whether a character may stand in a key without quotes. -/
def isBareChar (c : Char) : Bool :=
  c.isAlphanum || c = '_' || c = '-'

/-- The name that a part of a key writes. -/
def partName? : Token → Option String
  | .word s => if s ≠ "" ∧ s.toList.all isBareChar then some s else none
  | .quoted ⟨text, false⟩ => text
  | _ => none

/-- The most parts that a dotted key may have. -/
def partLimit : Nat := 80

/-- A dotted key that is understood: the names before the last, and the last. -/
structure Route where
  path : List String
  last : String
  deriving DecidableEq, Inhabited

/-- The names of a dotted key. -/
def Key.route (key : Key) : Except Flaw Route := do
  let names ← wellFormed (key.mapM partName?)
  if partLimit < names.length then throw .longKey
  match names.getLast? with
  | some last => return ⟨names.dropLast, last⟩
  | none => throw .malformed

/-! ## Values -/

/-- The value that a word stands for. -/
def wordValue? (word : List Char) : Option Data :=
  if word = ['t', 'r', 'u', 'e'] then some (.switch true)
  else if word = ['f', 'a', 'l', 's', 'e'] then some (.switch false)
  else if isNumber word then some (.number (String.ofList word))
  else (Moment.ofChars? word).map Moment.toData

mutual

/-- The data that a value writes. -/
def Expr.meaning : Expr → Except Flaw Data
  | .quoted q => (wellFormed q.text).map .text
  | .word cs => wellFormed (wordValue? cs)
  | .list items => (meanings items).map .list
  | .table entries => (fill [] entries).map fun fields => .table (fieldsToData fields)

/-- The data that values write. -/
def meanings : List Expr → Except Flaw (List Data)
  | [] => .ok []
  | item :: items => do
    let first ← item.meaning
    return first :: (← meanings items)

/-- Fill a table with entries. -/
def fill (fields : Fields) : List (Key × Expr) → Except Flaw Fields
  | [] => .ok fields
  | (key, value) :: entries => do
    let route ← Key.route key
    let data ← value.meaning
    fill (← fields.addValue route.last data route.path) entries

end

end PackageConfig.Toml
