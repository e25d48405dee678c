import PackageConfig.Data
import PackageConfig.Text.Blank
import PackageConfig.Text.Case

/-!
The values that options and build variables hold, and the domains that say
which values an option may take.
-/

namespace PackageConfig

/-- A value: a switch that is on or off, or a text. -/
inductive Value where
  | flag (on : Bool)
  | text (s : String)
  deriving DecidableEq, Inhabited

namespace Value

/-- A value enables its option unless it is the switch turned off. A text is
always an active choice; such an option is disabled only by being removed. -/
def enabled : Value → Bool
  | .flag on => on
  | .text _ => true

/-- The switch that a value is, if it is one. -/
def flag? : Value → Option Bool
  | .flag on => some on
  | .text _ => none

/-- The value as people read and write it. -/
def shown : Value → String
  | .flag on => if on then "true" else "false"
  | .text s => s

/-- The value as the build driver spells it: switches are `ON` and `OFF`. -/
def driverText : Value → String
  | .flag on => if on then "ON" else "OFF"
  | .text s => s

/-- The value as data. -/
def toData : Value → Data
  | .flag on => .switch on
  | .text s => .text s

/-- A switch or a text is a value; nothing else is. -/
def ofData? : Data → Option Value
  | .switch on => some (.flag on)
  | .text s => some (.text s)
  | _ => none

@[simp]
theorem ofData?_toData (v : Value) : ofData? v.toData = some v := by
  cases v <;> rfl

end Value

/-- The values that an option may take: the two switches, or a closed list of texts. -/
inductive Domain where
  | boolean
  | enumeration (members : List String)
  deriving DecidableEq, Inhabited

namespace Domain

/-- Whether a value lies in the domain. -/
def contains : Domain → Value → Bool
  | .boolean, .flag _ => true
  | .enumeration members, .text s => members.contains s
  | _, _ => false

/-- Read a text, blanks at its ends aside, as a value of the domain: `true` and
`false` in any letter case, or the exact name of a member. -/
def parse? (d : Domain) (raw : String) : Option Value :=
  let word := Text.trim raw
  match d with
  | .boolean =>
    if Text.sameWord word "true" then some (.flag true)
    else if Text.sameWord word "false" then some (.flag false)
    else none
  | .enumeration members => if members.contains word then some (.text word) else none

/-- The domain as messages and listings name it. -/
def shown : Domain → String
  | .boolean => "true|false"
  | .enumeration members => Text.join "|" members

/-- The domain as data. -/
def toData : Domain → Data
  | .boolean => .text "boolean"
  | .enumeration members => .table [("enumeration", .texts members)]

/-- Read a domain from JSON, as `toData` writes it. -/
def ofData? : Data → Option Domain
  | .table [("enumeration", members)] => (members.list? Data.text?).map .enumeration
  | d => if d.name? .json = some "boolean" then some .boolean else none

/-- What is read in a domain lies in it. -/
theorem contains_of_parse? {d : Domain} {raw : String} {v : Value}
    (h : d.parse? raw = some v) : d.contains v := by
  cases d with
  | boolean =>
    simp only [parse?] at h
    split at h
    · cases h; rfl
    · split at h
      · cases h; rfl
      · cases h
  | enumeration members =>
    simp only [parse?] at h
    split at h
    next mem => cases h; exact mem
    · cases h

end Domain

end PackageConfig
