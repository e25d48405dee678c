import PackageConfig.Data

/-!
The moments of TOML: a day, a time of day, or both, and then perhaps how far the
clock is from universal time.

No table has a place for a moment as such. In a tree of data it stands as a table
of one field under a reserved key, which holds the moment in its shortest form.
-/

namespace PackageConfig.Toml

/-- A day of the calendar. -/
structure Day where
  year : Nat
  month : Nat
  day : Nat
  deriving DecidableEq, Inhabited

/-- A time of day; of the fraction of the second, up to nine digits are kept. -/
structure Clock where
  hour : Nat
  minute : Nat
  second : Option Nat := none
  fraction : Option (List Char) := none
  deriving DecidableEq, Inhabited

/-- How far a clock is from universal time. -/
inductive Offset where
  | universal
  | ahead (minutes : Nat)
  | behind (minutes : Nat)
  deriving DecidableEq, Inhabited

/-- A day, a time of day, or both. -/
inductive Moment where
  | date (day : Day)
  | time (clock : Clock)
  | both (day : Day) (clock : Clock) (offset : Option Offset)
  deriving DecidableEq, Inhabited

/-! ## Reading -/

/-- The number that the first `n` characters write, all of them digits, and the rest. -/
def digits? (n : Nat) (cs : List Char) : Option (Nat × List Char) :=
  let run := cs.take n
  if run.length = n ∧ run.all Char.isDigit then
    some (run.foldl (fun value c => 10 * value + (c.toNat - '0'.toNat)) 0, cs.drop n)
  else none

/-- What follows a character that has to stand next. -/
def behind? (c : Char) : List Char → Option (List Char)
  | [] => none
  | d :: cs => if d = c then some cs else none

/-- The number of days of a month. -/
def monthLength (year month : Nat) : Nat :=
  if month = 2 then
    if year % 4 = 0 ∧ (year % 100 ≠ 0 ∨ year % 400 = 0) then 29 else 28
  else if month = 4 ∨ month = 6 ∨ month = 9 ∨ month = 11 then 30
  else 31

/-- Read a day. -/
def day? (cs : List Char) : Option (Day × List Char) := do
  let (year, cs) ← digits? 4 cs
  let (month, cs) ← digits? 2 (← behind? '-' cs)
  let (day, cs) ← digits? 2 (← behind? '-' cs)
  if 1 ≤ month ∧ month ≤ 12 ∧ 1 ≤ day ∧ day ≤ monthLength year month then
    return (⟨year, month, day⟩, cs)
  else none

/-- Read an hour and a minute. -/
def hourMinute? (cs : List Char) : Option ((Nat × Nat) × List Char) := do
  let (hour, cs) ← digits? 2 cs
  let (minute, cs) ← digits? 2 (← behind? ':' cs)
  if hour ≤ 23 ∧ minute ≤ 59 then return ((hour, minute), cs) else none

/-- Read the fraction of a second, if there is one. -/
def fraction? : List Char → Option (Option (List Char) × List Char)
  | '.' :: cs =>
    let run := cs.takeWhile Char.isDigit
    if run.isEmpty then none else some (some (run.take 9), cs.dropWhile Char.isDigit)
  | cs => some (none, cs)

/-- Read a time of day; a leap second may be the last of a minute, and seconds may
be left out. -/
def clock? (cs : List Char) : Option (Clock × List Char) := do
  let ((hour, minute), cs) ← hourMinute? cs
  match cs with
  | ':' :: cs => do
    let (second, cs) ← digits? 2 cs
    let (fraction, cs) ← fraction? cs
    if second ≤ 60 then return (⟨hour, minute, some second, fraction⟩, cs) else none
  | cs => return (⟨hour, minute, none, none⟩, cs)

/-- Read an offset that ends the text, or nothing. -/
def offset? : List Char → Option (Option Offset)
  | [] => some none
  | sign :: cs =>
    if (sign = 'Z' ∨ sign = 'z') ∧ cs = [] then some (some .universal)
    else
      match hourMinute? cs with
      | some ((hour, minute), []) =>
        if sign = '+' then some (some (.ahead (60 * hour + minute)))
        else if sign = '-' then some (some (.behind (60 * hour + minute)))
        else none
      | _ => none

namespace Moment

/-- Read a moment: between day and time stands a `T` or a space. -/
def ofChars? (cs : List Char) : Option Moment :=
  match day? cs with
  | some (day, []) => some (.date day)
  | some (day, mark :: rest) =>
    if mark = 'T' ∨ mark = 't' ∨ mark = ' ' then do
      let (clock, rest) ← clock? rest
      return .both day clock (← offset? rest)
    else none
  | none =>
    match clock? cs with
    | some (clock, []) => some (.time clock)
    | _ => none

end Moment

/-! ## Writing -/

/-- A number with zeros in front to make `width` digits. -/
def padded (width n : Nat) : String :=
  let digits := Nat.toDigits 10 n
  String.ofList (List.replicate (width - digits.length) '0' ++ digits)

/-- A day, year first. -/
def Day.shown (d : Day) : String :=
  padded 4 d.year ++ "-" ++ padded 2 d.month ++ "-" ++ padded 2 d.day

/-- The digits of a fraction without zeros at the end, of which one stays if there is no other. -/
def shownFraction (digits : List Char) : String :=
  let kept := (digits.reverse.dropWhile (· = '0')).reverse
  if kept.isEmpty then "0" else String.ofList kept

/-- A time of day, as far as it is given. -/
def Clock.shown (c : Clock) : String :=
  padded 2 c.hour ++ ":" ++ padded 2 c.minute ++
    (match c.second with
      | none => ""
      | some second => ":" ++ padded 2 second) ++
    (match c.fraction with
      | none => ""
      | some digits => "." ++ shownFraction digits)

/-- An offset in hours and minutes; no offset is ahead. -/
def Offset.shown : Offset → String
  | .universal => "Z"
  | .ahead minutes => "+" ++ padded 2 (minutes / 60) ++ ":" ++ padded 2 (minutes % 60)
  | .behind minutes =>
    (if minutes = 0 then "+" else "-") ++ padded 2 (minutes / 60) ++ ":" ++ padded 2 (minutes % 60)

namespace Moment

/-- A moment in its shortest form. -/
def shown : Moment → String
  | .date day => day.shown
  | .time clock => clock.shown
  | .both day clock offset =>
    day.shown ++ "T" ++ clock.shown ++
      match offset with
      | none => ""
      | some offset => offset.shown

/-- The key that is reserved for moments. -/
def key : String :=
  "$__toml_private_datetime"

/-- A moment as data. -/
def toData (m : Moment) : Data :=
  .table [(key, .text m.shown)]

end Moment

end PackageConfig.Toml
