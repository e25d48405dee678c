import PackageConfig.Resolution

/-!
What the commands print for people to read.
-/

namespace PackageConfig.CommandLine

/-- Texts one to a line. -/
def lines (texts : List String) : String :=
  String.join (texts.map (· ++ "\n"))

/-- A text filled up with blanks to a number of characters. -/
def padded (width : Nat) (s : String) : String :=
  s ++ String.ofList (List.replicate (width - s.length) ' ')

/-- A resolution: its platform and linkage, how many options are present, the
pins and the variables. -/
def summary (recipe : Recipe) (r : Resolution) : String :=
  let present := r.config.presentValues.length
  let removed := r.config.size - present
  lines (["aeonconf Resolution", "===================",
    s!"Platform:   {r.platform.shown}", s!"Build mode: {r.linkage.name}",
    s!"Options:    {present} present, {removed} removed", "",
    s!"Requirements ({r.pins.size}):"] ++
    r.pins.toList.map (fun pin => "  " ++ pin.shown) ++
    ["", s!"Variables ({r.table.size}):"] ++
    (recipe.variableRules.arguments r.table).map ("  " ++ ·))

/-- One option of a listing whose first column is `width` wide. -/
def listingLine (width : Nat) (d : Declaration) : String :=
  let parent := match d.parent with
    | some parent => s!"  (requires {parent})"
    | none => ""
  s!"{padded width d.name}  [{d.domain.shown}] default={d.default.shown}{parent}"

/-- The declared options in their order. The first column has as many characters
as the longest name has bytes. -/
def listing (declarations : List Declaration) : String :=
  let width := (declarations.map fun d => d.name.utf8ByteSize).foldl Nat.max 0
  lines (declarations.map (listingLine width))

/-- One option of an explanation. -/
def explanationLine (name : String) : State → String
  | .present value => s!"  {name} = {value.shown}"
  | .absent cause => s!"  {name} removed ({cause.shown})"

/-- The lines that explain the state of each declared option, in the order of the
declarations. -/
def explanationLines (options : Configuration) (declarations : List Declaration) :
    Except Fault (List String) :=
  declarations.mapM fun d => return explanationLine d.name (← options.lookup d.name)

end PackageConfig.CommandLine
