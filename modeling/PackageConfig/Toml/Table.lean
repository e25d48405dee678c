import PackageConfig.Data
import PackageConfig.Toml.Flaw

/-!
Tables under construction. TOML may fill one table from several places, and
which of them may add to it depends on how the table came to be: a table that
has a header of its own is closed to dotted keys and to a second header, one that
dotted keys made or gave a value is closed to headers, and one that was only passed
through on the way to another may still be given either.
-/

namespace PackageConfig.Toml

/-- How a table came to be. -/
inductive Origin where
  | header
  | dotted
  | passed
  deriving DecidableEq, Inhabited

/-- What a key holds: a finished value, a table, or a list of tables of which the
last is being filled. -/
inductive Node where
  | leaf (value : Data)
  | table (origin : Origin) (fields : List (String × Node))
  | tables (elements : List (List (String × Node)))

/-- The fields of a table under construction, in the order of their appearance. -/
abbrev Fields := List (String × Node)

namespace Fields

/-- What a key holds, if anything. -/
def get? (fields : Fields) (key : String) : Option Node :=
  (fields.find? fun field => field.1 == key).map Prod.snd

/-- The fields with a key holding something else. -/
def set (fields : Fields) (key : String) (node : Node) : Fields :=
  fields.map fun field => if field.1 = key then (key, node) else field

/-- The table that a key leads into on the way to a header, and the way to put it
back: a table itself, the last of a list of tables, or, if the key is new, an
empty table. -/
def enter (fields : Fields) (key : String) : Option (Fields × (Fields → Fields)) :=
  match fields.get? key with
  | none => some ([], fun inner => fields ++ [(key, .table .passed inner)])
  | some (.leaf _) => none
  | some (.table origin inner) =>
    some (inner, fun inner => set fields key (.table origin inner))
  | some (.tables elements) =>
    elements.getLast?.map fun last =>
      (last, fun inner => set fields key (.tables (elements.dropLast ++ [inner])))

/-- Change the table that the path of a header leads to. -/
def update (change : Fields → Except Flaw Fields) : List String → Fields → Except Flaw Fields
  | [], fields => change fields
  | key :: path, fields => do
    let (inner, back) ← wellFormed (enter fields key)
    return back (← update change path inner)

/-- Add a value under a dotted key, which has to be new. The tables on its way are made
by dotted keys or were only passed through, and the one that takes the value counts as
made by dotted keys from then on. -/
def addValue (key : String) (value : Data) : List String → Fields → Except Flaw Fields
  | [], fields =>
    if (fields.get? key).isSome then .error .malformed else .ok (fields ++ [(key, .leaf value)])
  | part :: path, fields =>
    match fields.get? part with
    | none => do
      let inner ← addValue key value path []
      return fields ++ [(part, .table .dotted inner)]
    | some (.table .header _) => .error .malformed
    | some (.table origin inner) => do
      let inner ← addValue key value path inner
      return set fields part (.table (if path = [] then .dotted else origin) inner)
    | some _ => .error .malformed

end Fields

mutual

/-- A finished table or list of tables as data. -/
def Node.toData : Node → Data
  | .leaf value => value
  | .table _ fields => .table (fieldsToData fields)
  | .tables elements => .list (elementsToData elements)

/-- The fields of a finished table as data. -/
def fieldsToData : List (String × Node) → List (String × Data)
  | [] => []
  | (key, node) :: fields => (key, node.toData) :: fieldsToData fields

/-- The elements of a finished list of tables as data. -/
def elementsToData : List (List (String × Node)) → List Data
  | [] => []
  | fields :: elements => .table (fieldsToData fields) :: elementsToData elements

end

end PackageConfig.Toml
