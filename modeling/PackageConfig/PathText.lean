import PackageConfig.Text.Split

/-!
Paths as people write them: names separated by slashes. Repeated slashes and
single dots say nothing, except for a dot in front of everything.
-/

namespace PackageConfig

namespace PathText

/-- The segments of a path, between its slashes. -/
def segmentChars : List Char → List (List Char)
  | [] => [[]]
  | '/' :: cs => [] :: segmentChars cs
  | c :: cs =>
    match segmentChars cs with
    | [] => [[c]]
    | segment :: segments => (c :: segment) :: segments

/-- The segments of a path as texts. -/
def segments (path : String) : List String :=
  (segmentChars path.toList).map String.ofList

/-- Whether a path starts at the root. -/
def isAbsolute (path : String) : Bool :=
  path.toList.head? = some '/'

/-- Whether a segment names something; a dot does only in front of everything. -/
def counts (first : Bool) (segment : String) : Bool :=
  segment ≠ "" && (first || segment ≠ ".")

/-- Drop the last segments of a reversed list, up to one that counts. The first
segment of a path, which is the last of the reversed list, may count as a dot. -/
def dropIdle (absolute : Bool) : List String → List String
  | [] => []
  | segment :: before =>
    if counts (before.isEmpty && !absolute) segment then segment :: before
    else dropIdle absolute before

/-- The segments of a path behind the root, last first, up to the last one that counts. -/
def tail (path : String) : List String :=
  let absolute := isAbsolute path
  let body := if absolute then (segments path).tail else segments path
  dropIdle absolute body.reverse

/-- The name that a path ends in, unless it ends in dots or names nothing. -/
def fileName? (path : String) : Option String :=
  match tail path with
  | [] => none
  | name :: _ => if name = "." ∨ name = ".." then none else some name

/-- What stands in a path before its last name; a path without anything there
is relative to the directory `.`. -/
def parent (path : String) : String :=
  let absolute := isAbsolute path
  match tail path with
  | [] => "."
  | _ :: before =>
    let text := Text.join "/" (dropIdle absolute before).reverse
    if absolute then "/" ++ text else if text = "" then "." else text

end PathText

end PackageConfig
