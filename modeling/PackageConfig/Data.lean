import PackageConfig.Text.Split

/-!
Structured data: the trees of tables, lists, texts and switches that manifests
and profiles are written in and that answers are printed as.

`Data.toJson` prints a tree as indented JSON. `Data.record?` reads a table with
fixed keys: it refuses a key that is not among them, and accepts in place of a
table the list of its fields in the order of the keys. What else it lets pass
depends on the dialect that the tree was written in.
-/

namespace PackageConfig

/-- A tree of data. A number is kept as the numeral that writes it. -/
inductive Data where
  | null
  | switch (on : Bool)
  | number (numeral : String)
  | text (s : String)
  | list (items : List Data)
  | table (fields : List (String × Data))

namespace Data

instance : Inhabited Data := ⟨.null⟩

/-- A natural number as data. -/
def nat (n : Nat) : Data :=
  .number (toString n)

/-- A list of texts as data. -/
def texts (ss : List String) : Data :=
  .list (ss.map .text)

/-! ## Printing -/

/-- One character of a JSON text: quotes, backslashes and control characters are escaped. -/
def jsonChar (c : Char) : String :=
  match c with
  | '"' => "\\\""
  | '\\' => "\\\\"
  | '\x08' => "\\b"
  | '\t' => "\\t"
  | '\n' => "\\n"
  | '\x0c' => "\\f"
  | '\x0d' => "\\r"
  | _ =>
    if c.toNat < 0x20 then
      "\\u00" ++ String.ofList [Nat.digitChar (c.toNat / 16), Nat.digitChar (c.toNat % 16)]
    else c.toString

/-- A text as a JSON string. -/
def jsonText (s : String) : String :=
  "\"" ++ String.join (s.toList.map jsonChar) ++ "\""

/-- A line break followed by two blanks for each level of nesting. -/
def lineBreak (depth : Nat) : String :=
  "\n" ++ String.ofList (List.replicate (2 * depth) ' ')

/-- The parts of a list or table between its brackets, one to a line. -/
def block (opening closing : String) (depth : Nat) (parts : List String) : String :=
  if parts.isEmpty then opening ++ closing
  else
    opening ++ lineBreak (depth + 1) ++ Text.join ("," ++ lineBreak (depth + 1)) parts ++
      lineBreak depth ++ closing

mutual

/-- The JSON text of a tree that stands `depth` levels deep. -/
def render (depth : Nat) : Data → String
  | .null => "null"
  | .switch on => if on then "true" else "false"
  | .number numeral => numeral
  | .text s => jsonText s
  | .list items => block "[" "]" depth (renderItems (depth + 1) items)
  | .table fields => block "\x7b" "\x7d" depth (renderFields (depth + 1) fields)

/-- The JSON texts of the items of a list. -/
def renderItems (depth : Nat) : List Data → List String
  | [] => []
  | item :: items => render depth item :: renderItems depth items

/-- The JSON texts of the fields of a table, each with its key. -/
def renderFields (depth : Nat) : List (String × Data) → List String
  | [] => []
  | (key, value) :: fields =>
    (jsonText key ++ ": " ++ render depth value) :: renderFields depth fields

end

/-- A tree as JSON, two blanks to a level. -/
def toJson (d : Data) : String :=
  render 0 d

/-! ## Reading -/

/-- The two dialects that trees are written in. -/
inductive Dialect where
  | json
  | toml
  deriving DecidableEq, Inhabited

/-- Whether a list that stands for a record may go on behind the last field. -/
def Dialect.allowsSurplus : Dialect → Bool
  | .json => false
  | .toml => true

/-- Whether a tree holds nothing: that is null in JSON, and an empty list or
table in TOML, which has no null. -/
def Dialect.isNothing : Dialect → Data → Bool
  | .json, .null => true
  | .toml, .list [] => true
  | .toml, .table [] => true
  | _, _ => false

/-- The switch that a tree is. -/
def switch? : Data → Option Bool
  | .switch on => some on
  | _ => none

/-- The text that a tree is. -/
def text? : Data → Option String
  | .text s => some s
  | _ => none

/-- The list that a tree is, each item read by `item`. -/
def list? {α : Type} (item : Data → Option α) : Data → Option (List α)
  | .list items => items.mapM item
  | _ => none

/-- A bare name: a text, or a table whose one key holds nothing. -/
def name? (dialect : Dialect) : Data → Option String
  | .text s => some s
  | .table [(key, held)] => if dialect.isNothing held then some key else none
  | _ => none

/-- What a bare name stands for. -/
def named? {α : Type} (dialect : Dialect) (find : String → Option α) (d : Data) : Option α :=
  (d.name? dialect).bind find

/-- The value of a key in the fields of a table. -/
def field? (fields : List (String × Data)) (key : String) : Option Data :=
  (fields.find? fun field => field.1 == key).map Prod.snd

/-- A record whose fields are looked up by key. -/
abbrev Record := String → Option Data

/-- Read a record with the given keys: from a table that has no other key, or
from a list of the fields in the order of the keys, of which the last may be left out. -/
def record? (dialect : Dialect) (keys : List String) : Data → Option Record
  | .table fields =>
    if fields.all fun field => keys.contains field.1 then some (field? fields) else none
  | .list items =>
    if dialect.allowsSurplus || items.length ≤ keys.length then some (field? (keys.zip items))
    else none
  | _ => none

/-- Read a record of which keys beyond the given ones are ignored. -/
def openRecord? (dialect : Dialect) (keys : List String) : Data → Option Record
  | .table fields => some (field? fields)
  | other => record? dialect keys other

namespace Record

variable {α : Type}

/-- A field that has to be there. -/
def required (r : Record) (key : String) (read : Data → Option α) : Option α :=
  (r key).bind read

/-- A field that stands for `default` when it is left out. -/
def orElse (r : Record) (key : String) (default : α) (read : Data → Option α) : Option α :=
  match r key with
  | none => some default
  | some d => read d

/-- A field that may be left out or be null. -/
def optional (r : Record) (key : String) (read : Data → Option α) : Option (Option α) :=
  match r key with
  | none => some none
  | some .null => some none
  | some d => (read d).map some

end Record

end Data

end PackageConfig
